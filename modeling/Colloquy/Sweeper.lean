import Colloquy.Dispatch.Desk
/-!
# The sweeper

From instant zero a sweeper removes what has expired at every multiple of its
interval, until it is cancelled. `advance` carries a desk and its sweeper
through a stretch of time: the ticks due in it happen in order, each at its
own instant.
-/

namespace Colloquy

/-- A sweeper and the desk that it sweeps. -/
structure Sweeper where
  desk : Desk
  interval : Nat
  now : Nat
  /-- The instant of the next tick, while the sweeper runs. -/
  nextTick : Option Nat

namespace Sweeper

/-- A sweeper that starts at instant zero. The tick at zero finds nothing and
is passed over; without an interval there is no other. -/
def start (desk : Desk) (interval : Nat) : Sweeper :=
  ⟨desk, interval, 0, if interval = 0 then none else some interval⟩

/-- Runs the ticks that are due up to an instant, at most `bound` of them. -/
def runTicks (s : Sweeper) (instant : Nat) : Nat → Sweeper
  | 0 => s
  | bound + 1 =>
    match s.nextTick with
    | none => s
    | some t =>
      if t ≤ instant then
        runTicks { s with desk := s.desk.sweep t, nextTick := some (t + s.interval) } instant bound
      else s

/-- Lets time pass. -/
def advance (s : Sweeper) (ms : Nat) : Sweeper :=
  let instant := s.now + ms
  { s.runTicks instant (instant + 1) with now := instant }

/-- The sweeper takes its way out and stops. It is told to before: if a tick is due
then, it may take either first, so that this tick still runs. No tick runs behind
this. -/
def cancel (s : Sweeper) : Sweeper := { s with nextTick := none }

/-- Whether the sweeper has stopped. -/
def isFinished (s : Sweeper) : Bool := s.nextTick.isNone

end Sweeper

end Colloquy
