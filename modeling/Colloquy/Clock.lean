import Colloquy.Moment
/-!
# The clock

Time is counted in milliseconds from the start of the process. An instant is
held in 63 bits of seconds, so a far enough instant has no representation:
`later?` says when one is reached. A pause that would end there ends after
thirty years instead.
-/

namespace Colloquy.Clock

/-- The first millisecond that is no instant. -/
def horizon : Nat := (Nat.pow 2 63 - 1) * 1000

/-- A duration in whole seconds. -/
def seconds (n : Nat) : Nat := n * 1000

/-- The instant a duration after another, when there is one. -/
def later? (now duration : Nat) : Option Nat :=
  if now + duration < horizon then some (now + duration) else none

/-- Thirty years. -/
def farOff : Nat := seconds (86400 * 365 * 30)

/-- The instant at which a pause ends. -/
def wake (now pause : Nat) : Nat :=
  (later? now pause).getD (now + farOff)

/-- Whether an instant comes after a deadline. -/
def isPast (deadline : Option Nat) (instant : Nat) : Bool :=
  match deadline with
  | none => false
  | some d => d < instant

/-- A duration in seconds, with as many places as it needs; below one second
in milliseconds. -/
def durationText (ms : Nat) : String :=
  if ms = 0 then "0ns"
  else if ms < 1000 then toString ms ++ "ms"
  else
    let whole := toString (ms / 1000)
    let part := ms % 1000
    if part = 0 then whole ++ "s"
    else if part % 100 = 0 then whole ++ "." ++ toString (part / 100) ++ "s"
    else if part % 10 = 0 then whole ++ "." ++ Moment.padded 2 (part / 10) ++ "s"
    else whole ++ "." ++ Moment.padded 3 part ++ "s"

end Colloquy.Clock
