import Colloquy.Clock
import Colloquy.Json.Reader
import Colloquy.Moment
/-!
# Metrics

Requests and errors are counted, and the latest hundred response times are
kept, the oldest first.
-/

namespace Colloquy

/-- Counts and response times since the start. -/
structure Metrics where
  requests : Nat
  errors : Nat
  times : List Float

namespace Metrics

/-- How many response times are kept. -/
def windowSize : Nat := 100

/-- No requests yet. -/
def empty : Metrics := ⟨0, 0, []⟩

/-- A request has started. -/
def start (m : Metrics) : Metrics := { m with requests := m.requests + 1 }

/-- A request has failed. -/
def fail (m : Metrics) : Metrics := { m with errors := m.errors + 1 }

/-- A response took some milliseconds; the oldest of a full window is
dropped. -/
def record (m : Metrics) (ms : Float) : Metrics :=
  let kept := if m.times.length = windowSize then m.times.drop 1 else m.times
  { m with times := kept ++ [ms] }

/-- A number of milliseconds by way of seconds. -/
def elapsed (ms : Nat) : Float :=
  ((UInt64.ofNat (ms / 1000)).toFloat + (UInt64.ofNat (ms % 1000 * 1000000)).toFloat / 1e9) * 1000.0

/-- A timed operation is over after some milliseconds. -/
def finish (m : Metrics) (ms : Nat) (failed : Bool) : Metrics :=
  let m := if failed then m.fail else m
  m.record (elapsed ms)

/-- Times an operation that would run for some milliseconds and ends in a
result, for as long as a timeout lets it run. The metrics behind it, how long
it ran, and its result unless it was dropped. -/
def instrument {ε α : Type} (m : Metrics) (now takes : Nat) (timeout : Option Nat)
    (result : Except ε α) : Metrics × Nat × Option (Except ε α) :=
  let deadline := timeout.map (Clock.wake now)
  let ended := Clock.wake now takes
  if Clock.isPast deadline ended then
    let ran := deadline.getD ended - now
    (m.start.finish ran false, ran, none)
  else
    let failed := match result with
      | .error _ => true
      | .ok _ => false
    (m.start.finish (ended - now) failed, ended - now, some result)

/-- The mean of response times, summed from the oldest; zero when there are
none. -/
def mean (times : List Float) : Float :=
  if times.isEmpty then 0.0
  else times.foldl (· + ·) (-0.0) / (UInt64.ofNat times.length).toFloat

/-- The mean of the kept response times. -/
def average (m : Metrics) : Float := mean m.times

/-- The shape of a snapshot's JSON form. -/
def shape : Shape :=
  .record [Shape.needs "request_count" .word64, Shape.needs "error_count" .word64,
    Shape.needs "response_times_ms" (.listOf .double),
    Shape.needs "last_request_at" (.optional (.text fun s => (Moment.ofRelaxed? s).isSome)),
    Shape.needs "avg_response_time_ms" .double]

/-- A value of the shape with its moment in canonical text. -/
def canonical (j : Json) : Json :=
  .object [("request_count", j.field "request_count"), ("error_count", j.field "error_count"),
    ("response_times_ms", j.field "response_times_ms"),
    ("last_request_at",
      .ofOption (fun m : Moment => .text m.text)
        ((j.field "last_request_at").text?.bind Moment.ofRelaxed?)),
    ("avg_response_time_ms", j.field "avg_response_time_ms")]

end Metrics

end Colloquy
