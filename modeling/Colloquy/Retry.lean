import Colloquy.Clock
import Colloquy.Settings.Basic
/-!
# Retry with a fixed pause

An operation is tried until it succeeds or the attempts are used up, with a
pause between two attempts and none behind the last. `Retrying` says where a
run stands; `afterAttempt` is the one decision in it. `RetryPolicy.run` walks
a run whose attempts are given with their durations, up to a deadline.
-/

namespace Colloquy

/-- How often an operation is tried, and the pause between two tries. -/
structure RetryPolicy where
  attempts : Nat
  delay : Nat
  attempts_pos : 1 ≤ attempts := by omega

/-- Where a run of attempts stands. -/
inductive Retrying (ε α : Type) where
  /-- An attempt is under way, with some made before it. -/
  | attempting (made : Nat)
  /-- A pause is under way, behind some attempts. -/
  | pausing (made : Nat)
  /-- The run is over. -/
  | settled (result : Except ε α)

namespace RetryPolicy

variable {ε α : Type}

/-- The policy with a number of attempts, of which zero counts as one. -/
def ofAttempts (attempts delay : Nat) : RetryPolicy where
  attempts := max 1 attempts
  delay := delay

/-- The policy of settings. -/
def ofSettings (s : Settings) : RetryPolicy :=
  ofAttempts s.retry.maxAttempts s.retryDelay

/-- Where a run stands when an attempt has ended. -/
def afterAttempt (p : RetryPolicy) (made : Nat) : Except ε α → Retrying ε α
  | .ok a => .settled (.ok a)
  | .error e => if made + 1 < p.attempts then .pausing (made + 1) else .settled (.error e)

/-- A run as it is observed. -/
structure Trace (ε α : Type) where
  /-- The instants at which attempts started, in order. -/
  startedAt : List Nat
  /-- The instant at which the run ended. -/
  endedAt : Nat
  /-- The result, unless the deadline came first. -/
  result : Option (Except ε α)

/-- Walks a run from an attempt that starts at `now`, with at most `left`
attempts to come. -/
def runFrom (p : RetryPolicy) (deadline : Option Nat)
    (attempt : Nat → Except ε α × Nat) (now made : Nat) : Nat → Trace ε α
  | 0 => ⟨[], now, none⟩
  | left + 1 =>
    let (outcome, takes) := attempt made
    let ended := Clock.wake now takes
    if Clock.isPast deadline ended then ⟨[now], deadline.getD ended, none⟩
    else
      match p.afterAttempt made outcome with
      | .settled result => ⟨[now], ended, some result⟩
      | _ =>
        let next := Clock.wake ended p.delay
        if Clock.isPast deadline next then ⟨[now], deadline.getD next, none⟩
        else
          let rest := runFrom p deadline attempt next (made + 1) left
          { rest with startedAt := now :: rest.startedAt }

/-- The run of attempts with given outcomes and durations from instant zero. -/
def run (p : RetryPolicy) (deadline : Option Nat) (attempt : Nat → Except ε α × Nat) :
    Trace ε α :=
  runFrom p deadline attempt 0 0 p.attempts

end RetryPolicy

end Colloquy
