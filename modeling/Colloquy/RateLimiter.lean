import Colloquy.Clock
import Colloquy.Table
/-!
# The rate limiter

A user's first request opens a window, and so does the first one after a
window has closed. A request is allowed while its window has admitted fewer
than `maxRequests`. Each request first drops the closed windows of every user.
-/

namespace Colloquy

/-- The requests admitted in a user's window, and the instant it closes. -/
structure RateWindow where
  count : Nat
  resetAt : Nat
deriving DecidableEq, Repr

/-- The open windows of all users. -/
structure RateLimiter where
  window : Nat
  maxRequests : Nat
  windows : Table String RateWindow

/-- The answer to a request. -/
inductive Verdict where
  | allowed
  | denied
  /-- The window would close at an instant that cannot be represented. -/
  | overflow
deriving DecidableEq, Repr

namespace RateLimiter

/-- A limiter that has seen nobody. -/
def empty (window maxRequests : Nat) : RateLimiter := ⟨window, maxRequests, .empty⟩

/-- The limiter without closed windows. -/
def purge (l : RateLimiter) (now : Nat) : RateLimiter :=
  { l with windows := l.windows.keep fun w => now < w.resetAt }

/-- The window that a request of a user falls in, opened for it if need be. -/
def windowFor (l : RateLimiter) (now : Nat) (user : String) : Option RateWindow :=
  match l.windows.get? user with
  | some w => some w
  | none => (Clock.later? now l.window).map fun resetAt => ⟨0, resetAt⟩

/-- Counts a request of a user. -/
def allow (l : RateLimiter) (now : Nat) (user : String) : Verdict × RateLimiter :=
  let l := l.purge now
  match l.windowFor now user with
  | none => (.overflow, l)
  | some w =>
    if l.maxRequests ≤ w.count then (.denied, { l with windows := l.windows.put user w })
    else (.allowed, { l with windows := l.windows.put user { w with count := w.count + 1 } })

/-- The limiter without closed windows, and how many those were. -/
def sweep (l : RateLimiter) (now : Nat) : Nat × RateLimiter :=
  let open' := l.purge now
  (l.windows.size - open'.windows.size, open')

/-- The number of users with a window. -/
def trackedUsers (l : RateLimiter) : Nat := l.windows.size

/-- A limiter in one line: its window, its limit and how many users it
tracks. -/
def shown (l : RateLimiter) : String :=
  "RateLimiter \x7b window: " ++ Clock.durationText l.window ++ ", max_requests: " ++
    toString l.maxRequests ++ ", tracked_users: " ++ toString l.trackedUsers ++ " \x7d"

end RateLimiter

end Colloquy
