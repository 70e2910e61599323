import Colloquy.RateLimiter
import Colloquy.Proofs.Table
/-!
# The limiter and the clock

A window closes at an instant that can be represented (`Bounded`), and a
request is allowed only in an open window. So nothing is allowed at an instant
that cannot be represented.
-/

namespace Colloquy.RateLimiter

variable {l : RateLimiter} {now : Nat} {user : String}

/-- Every window closes at an instant. -/
def Bounded (l : RateLimiter) : Prop := ∀ e ∈ l.windows.entries, e.2.resetAt < Clock.horizon

theorem empty_bounded (window maxRequests : Nat) : (empty window maxRequests).Bounded :=
  fun _ he => by cases he

theorem Bounded.purge (hl : l.Bounded) (now : Nat) : (l.purge now).Bounded :=
  fun e he => hl e (List.mem_filter.1 he).1

/-- A window that a request falls in is not closed. -/
theorem le_resetAt_of_windowFor {w : RateWindow}
    (hw : (l.purge now).windowFor now user = some w) : now ≤ w.resetAt := by
  simp only [RateLimiter.windowFor] at hw
  split at hw
  · rename_i w' hget
    cases hw
    have hopen := (List.mem_filter.1 (Table.mem_of_get? hget)).2
    rw [decide_eq_true_eq] at hopen
    exact Nat.le_of_lt hopen
  · simp only [Clock.later?, Option.map_eq_some_iff] at hw
    obtain ⟨resetAt, hlater, rfl⟩ := hw
    split at hlater
    · cases hlater
      exact Nat.le_add_right _ _
    · cases hlater

/-- The window that a request falls in closes at an instant, and no earlier than now. -/
theorem Bounded.windowFor (hl : l.Bounded) {w : RateWindow}
    (hw : (l.purge now).windowFor now user = some w) :
    now ≤ w.resetAt ∧ w.resetAt < Clock.horizon := by
  refine ⟨le_resetAt_of_windowFor hw, ?_⟩
  simp only [RateLimiter.windowFor] at hw
  split at hw
  · rename_i w' hget
    cases hw
    exact hl.purge now _ (Table.mem_of_get? hget)
  · simp only [Clock.later?, Option.map_eq_some_iff] at hw
    obtain ⟨resetAt, hlater, rfl⟩ := hw
    split at hlater
    · cases hlater
      assumption
    · cases hlater

/-- **Counting a request keeps the bound.** -/
theorem Bounded.allow (hl : l.Bounded) (now : Nat) (user : String) :
    (l.allow now user).2.Bounded := by
  simp only [RateLimiter.allow]
  split
  · exact hl.purge now
  · rename_i w hw
    have hbound := (hl.windowFor hw).2
    split <;>
    · intro e he
      rcases Table.mem_put he with rfl | he
      · exact hbound
      · exact hl.purge now e he

/-- **What is allowed is allowed at an instant.** -/
theorem Bounded.now_lt (hl : l.Bounded) (hv : (l.allow now user).1 = .allowed) :
    now < Clock.horizon := by
  simp only [RateLimiter.allow] at hv
  split at hv
  · cases hv
  · rename_i w hw
    obtain ⟨hopen, hbound⟩ := hl.windowFor hw
    omega

/-- **Only a window that cannot close fails to open**: the user has no open one,
and there is no instant a window's length from now. -/
theorem allow_eq_overflow_iff : (l.allow now user).1 = .overflow ↔
    (l.purge now).windows.get? user = none ∧ Clock.horizon ≤ now + l.window := by
  have hwindow : (l.purge now).windowFor now user = none ↔
      (l.purge now).windows.get? user = none ∧ Clock.horizon ≤ now + l.window := by
    simp only [RateLimiter.windowFor]
    cases (l.purge now).windows.get? user with
    | some w => simp
    | none =>
      simp only [Option.map_eq_none_iff, Clock.later?, true_and]
      change (if now + l.window < Clock.horizon then _ else none) = none ↔ _
      split
      · rename_i hbefore
        exact iff_of_false (by simp) (Nat.not_le.2 hbefore)
      · rename_i hbeyond
        exact iff_of_true rfl (Nat.not_lt.1 hbeyond)
  rw [← hwindow]
  simp only [RateLimiter.allow]
  cases (l.purge now).windowFor now user with
  | none => exact iff_of_true rfl rfl
  | some w =>
    refine iff_of_false ?_ (by simp)
    dsimp only
    split
    · simp
    · simp

/-- No window has admitted more requests than it may. -/
def Capped (l : RateLimiter) : Prop := ∀ e ∈ l.windows.entries, e.2.count ≤ l.maxRequests

theorem empty_capped (window maxRequests : Nat) : (empty window maxRequests).Capped :=
  fun _ he => by cases he

/-- **Counting a request keeps the limit**: it is counted in a window that has
room for it. -/
theorem Capped.allow (hl : l.Capped) (now : Nat) (user : String) :
    (l.allow now user).2.Capped := by
  have hpurge : ∀ e ∈ (l.purge now).windows.entries, e.2.count ≤ l.maxRequests :=
    fun e he => hl e (List.mem_filter.1 he).1
  simp only [RateLimiter.allow]
  split
  · exact hpurge
  · rename_i w hw
    have hcount : w.count ≤ l.maxRequests := by
      simp only [RateLimiter.windowFor] at hw
      split at hw
      · rename_i w' hget
        cases hw
        exact hpurge _ (Table.mem_of_get? hget)
      · obtain ⟨resetAt, -, rfl⟩ := Option.map_eq_some_iff.1 hw
        exact Nat.zero_le _
    split
    · intro e he
      rcases Table.mem_put he with rfl | he
      · exact hcount
      · exact hpurge e he
    · rename_i hroom
      intro e he
      rcases Table.mem_put he with rfl | he
      · exact Nat.lt_of_not_le hroom
      · exact hpurge e he

end Colloquy.RateLimiter
