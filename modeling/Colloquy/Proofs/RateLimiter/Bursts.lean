import Colloquy.Proofs.RateLimiter
import Colloquy.Proofs.Sweeping
/-!
# Bursts

How many requests of one user are allowed in a stretch of time that is as long
as a window and begins anywhere. The stretch meets two windows at most: one that
was opened before it, and one that is opened in it and closes behind its end. So
what the table has of the user bounds what the stretch has admitted so far
(`allowance`). Requests and sweeps drop closed windows from the table, but one
that closes in the stretch has admitted no more than the limit, and that is the
allowance of a user without a window. Every chore keeps the bound
(`Bursts.step`), so no stretch admits more than twice the limit (`admitted_le`).
-/

namespace Colloquy

open Timed

/-- Each call among chores with its answer. -/
def Chore.log {σ α β : Type} (step : σ → Timed α → β × σ) (sweep : σ → Nat → σ) (s : σ) :
    List (Timed (Chore α)) → List (Timed α × β)
  | [] => []
  | ⟨instant, .call a⟩ :: chores =>
    (⟨instant, a⟩, (step s ⟨instant, a⟩).1) ::
      Chore.log step sweep (step s ⟨instant, a⟩).2 chores
  | ⟨instant, .sweep⟩ :: chores => Chore.log step sweep (sweep s instant) chores

namespace RateLimiter

/-- Whether a request of a user is allowed at one of the `length` instants from
`start` on. -/
def isAdmitted (user : String) (start length : Nat) (e : Timed String × Verdict) : Bool :=
  e.1.call = user && e.2 = .allowed && start ≤ e.1.instant && e.1.instant < start + length

/-- How many requests of a user a log has allowed at the `length` instants from
`start` on. -/
def admitted (user : String) (start length : Nat) (log : List (Timed String × Verdict)) : Nat :=
  log.countP (isAdmitted user start length)

/-- **The most that a stretch can have admitted** when the table has this of the
user. A window that closes in the stretch was opened before it. One that outlasts
it may have been opened in it, behind a full one. -/
def allowance (w m start : Nat) : Option RateWindow → Nat
  | none => m
  | some x => if x.resetAt < start + w then x.count else m + x.count

variable {w m start now t n : Nat} {user : String} {l : RateLimiter} {o : Option RateWindow}

theorem allowance_le (ho : ∀ x ∈ o, x.count ≤ m) : allowance w m start o ≤ 2 * m := by
  cases o with
  | none => simp only [allowance]; omega
  | some x =>
    have hx := ho x rfl
    simp only [allowance]
    split <;> omega

/-- A closed window may be dropped: before the end of the stretch, it has closed
before that end. -/
theorem allowance_le_filter (ho : ∀ x ∈ o, x.count ≤ m) (hend : t < start + w) :
    allowance w m start o ≤ allowance w m start (o.filter fun x => t < x.resetAt) := by
  cases o with
  | none => exact Nat.le_refl _
  | some x =>
    have hx := ho x rfl
    by_cases hopen : t < x.resetAt
    · rw [Option.filter_some, if_pos (by simpa using hopen)]
    · have hclosed : x.resetAt < start + w := by omega
      rw [Option.filter_some, if_neg (by simpa using hopen)]
      simp only [allowance, if_pos hclosed]
      exact hx

/-- A window opened in the stretch outlasts it. -/
theorem allowance_opened (hstart : start ≤ t) :
    allowance w m start (some ⟨0, t + w⟩) = allowance w m start none := by
  have hlate : ¬ t + w < start + w := by omega
  simp only [allowance, if_neg hlate, Nat.add_zero]

theorem allowance_counted (x : RateWindow) :
    allowance w m start (some { x with count := x.count + 1 }) =
      allowance w m start (some x) + 1 := by
  simp only [allowance]
  split <;> omega

/-! ## What a request does to its user's window -/

theorem Capped.purge (hl : l.Capped) (t : Nat) : (l.purge t).Capped :=
  fun e he => hl e (List.mem_filter.1 he).1

theorem Capped.get? (hl : l.Capped) : ∀ x ∈ l.windows.get? user, x.count ≤ l.maxRequests :=
  fun x hx => hl (user, x) (Table.mem_of_get? hx)

/-- The window of a request stands, or is opened then unless it cannot close. -/
theorem windowFor_cases (l : RateLimiter) (t : Nat) (user : String) :
    l.windowFor t user = l.windows.get? user ∨
      l.windows.get? user = none ∧ l.windowFor t user = some ⟨0, t + l.window⟩ := by
  simp only [windowFor]
  cases hget : l.windows.get? user with
  | some x => exact .inl rfl
  | none =>
    simp only [Clock.later?]
    split
    · exact .inr ⟨trivial, rfl⟩
    · exact .inl rfl

/-- **A request is allowed and counted in its window**, or leaves the window as
it is. -/
theorem allow_cases (l : RateLimiter) (t : Nat) (user : String) :
    ((l.allow t user).1 ≠ .allowed ∧
        (l.allow t user).2.windows.get? user = (l.purge t).windowFor t user) ∨
      ∃ x, (l.purge t).windowFor t user = some x ∧ (l.allow t user).1 = .allowed ∧
        (l.allow t user).2.windows.get? user = some { x with count := x.count + 1 } := by
  simp only [allow]
  cases hx : (l.purge t).windowFor t user with
  | none =>
    -- the window cannot close, and the table has none of the user
    rcases windowFor_cases (l.purge t) t user with hget | ⟨-, hopened⟩
    · exact .inl ⟨Verdict.noConfusion, hget.symm.trans hx⟩
    · rw [hx] at hopened
      cases hopened
  | some x =>
    dsimp only
    split
    · exact .inl ⟨Verdict.noConfusion, Table.get?_put_self _ _ _⟩
    · exact .inr ⟨x, rfl, rfl, Table.get?_put_self _ _ _⟩

/-! ## Runs -/

/-- **What is known of a stretch** that has admitted `n` requests of a user so
far: none before it begins, and no more than the allowance before it ends. -/
structure Bursts (w m start now : Nat) (user : String) (n : Nat) (l : RateLimiter) : Prop where
  window_eq : l.window = w
  maxRequests_eq : l.maxRequests = m
  keyed : l.windows.Keyed
  capped : l.Capped
  before : now < start → n = 0
  during : now < start + w → n ≤ allowance w m start (l.windows.get? user)
  total : n ≤ 2 * m

theorem bursts_empty (w m start : Nat) (user : String) :
    Bursts w m start 0 user 0 (empty w m) :=
  ⟨rfl, rfl, Table.keyed_empty, empty_capped w m, fun _ => rfl, fun _ => Nat.zero_le _,
    Nat.zero_le _⟩

/-- **One chore.** It admits `k` requests of the user, none of them outside of the
stretch, and the allowance that the purge leaves grows with them. -/
theorem Bursts.step (h : Bursts w m start now user n l) (hnow : now ≤ t) {l' : RateLimiter}
    (hrules : l'.window = l.window ∧ l'.maxRequests = l.maxRequests) (hkeyed : l'.windows.Keyed)
    (hcapped : l'.Capped) {k : Nat} (houtside : t < start ∨ start + w ≤ t → k = 0)
    (hinside : start ≤ t → t < start + w →
      allowance w m start ((l.purge t).windows.get? user) + k ≤
        allowance w m start (l'.windows.get? user)) :
    Bursts w m start t user (n + k) l' := by
  have hbefore : t < start → n + k = 0 := by
    intro hearly
    have hnone := h.before (by omega)
    have hk := houtside (.inl hearly)
    omega
  have hduring : t < start + w → n + k ≤ allowance w m start (l'.windows.get? user) := by
    intro hend
    by_cases hstart : start ≤ t
    · have hcap : ∀ x ∈ l.windows.get? user, x.count ≤ m := h.maxRequests_eq ▸ h.capped.get?
      have hso := h.during (by omega)
      have hpurge := allowance_le_filter hcap hend
      rw [← Table.get?_keep h.keyed] at hpurge
      have hchore := hinside hstart hend
      simp only [purge] at hchore
      omega
    · have hnone := hbefore (by omega)
      omega
  refine ⟨hrules.1.trans h.window_eq, hrules.2.trans h.maxRequests_eq, hkeyed, hcapped, hbefore,
    hduring, ?_⟩
  by_cases hend : t < start + w
  · have hcap : ∀ x ∈ l'.windows.get? user, x.count ≤ m :=
      (hrules.2.trans h.maxRequests_eq) ▸ hcapped.get?
    exact Nat.le_trans (hduring hend) (allowance_le hcap)
  · have hk := houtside (.inr (by omega))
    have htotal := h.total
    omega

/-- A sweep admits nothing. -/
theorem Bursts.sweep (h : Bursts w m start now user n l) (hnow : now ≤ t) :
    Bursts w m start t user n (l.sweep t).2 := by
  have hrules : (l.purge t).window = l.window ∧ (l.purge t).maxRequests = l.maxRequests :=
    ⟨rfl, rfl⟩
  exact h.step hnow hrules (purge_keyed h.keyed t) (h.capped.purge t) (fun _ => rfl)
    fun _ _ => Nat.le_refl _

/-- **A request of anybody** keeps what is known of the stretch. -/
theorem Bursts.request (h : Bursts w m start now user n l) {c : Timed String}
    (hnow : now ≤ c.instant) :
    Bursts w m start c.instant user
      (n + if isAdmitted user start w (c, (l.request c).1) then 1 else 0) (l.request c).2 := by
  refine h.step hnow (allow_rules c.instant c.call) (allow_keyed h.keyed c.instant c.call)
    (h.capped.allow c.instant c.call) (fun houtside => ?_) fun hstart hend => ?_
  · refine if_neg fun hadmitted => ?_
    simp only [isAdmitted, Bool.and_eq_true, decide_eq_true_eq] at hadmitted
    omega
  · by_cases hown : c.call = user
    · -- a window that is opened allows as much as none did, and what is allowed counts in it
      subst hown
      have hfor : allowance w m start ((l.purge c.instant).windows.get? c.call) =
          allowance w m start ((l.purge c.instant).windowFor c.instant c.call) := by
        rcases windowFor_cases (l.purge c.instant) c.instant c.call with hget | ⟨hnone, hopened⟩
        · rw [hget]
        · have hwindow : (l.purge c.instant).window = w := h.window_eq
          rw [hopened, hnone, hwindow, allowance_opened hstart]
      rw [hfor]
      rcases allow_cases l c.instant c.call with ⟨hnot, hget⟩ | ⟨x, hx, hallowed, hget⟩
      · have hk : isAdmitted c.call start w (c, (l.request c).1) = false := by
          simp [isAdmitted, RateLimiter.request, hnot]
        rw [hk, hget]
        exact Nat.le_refl _
      · have hk : isAdmitted c.call start w (c, (l.request c).1) = true := by
          simp [isAdmitted, RateLimiter.request, hallowed, hstart, hend]
        rw [hk, hget, hx, allowance_counted]
        exact Nat.le_refl _
    · have hk : isAdmitted user start w (c, (l.request c).1) = false := by
        simp [isAdmitted, hown]
      rw [hk, allow_other hown]
      exact Nat.le_refl _

/-- From wherever a stretch stands, a run admits no more than twice the limit. -/
theorem Bursts.run (h : Bursts w m start now user n l) {chores : List (Timed (Chore String))}
    (horder : InOrder chores) (hlater : ∀ c ∈ chores, now ≤ c.instant) :
    n + admitted user start w
      (Chore.log RateLimiter.request (fun l now => (l.sweep now).2) l chores) ≤ 2 * m := by
  induction chores generalizing now n l with
  | nil => exact h.total
  | cons c chores ih =>
    obtain ⟨hnext, horder'⟩ := inOrder_cons.1 horder
    have hnow := hlater c (.head _)
    obtain ⟨instant, call | _⟩ := c
    · have hrest := ih (h.request (c := ⟨instant, call⟩) hnow) horder' hnext
      simp only [Chore.log, admitted, List.countP_cons] at hrest ⊢
      omega
    · exact ih (h.sweep hnow) horder' hnext

/-- **A user bursts up to twice the limit.** However requests of all users are
interspersed with sweeps, at most `2 * maxRequests` of one user are allowed in a
stretch as long as a window, wherever it begins. -/
theorem admitted_le (window maxRequests : Nat) (chores : List (Timed (Chore String)))
    (horder : InOrder chores) (user : String) (start : Nat) :
    admitted user start window (Chore.log request (fun l now => (l.sweep now).2)
      (empty window maxRequests) chores) ≤ 2 * maxRequests := by
  have hrun := (bursts_empty window maxRequests start user).run horder fun _ _ => Nat.zero_le _
  rwa [Nat.zero_add] at hrun

/-- A stretch over the end of Alice's first window, which a sweep drops: it has
the last request of this window and both of the next one. -/
theorem admitted_le_across_windows :
    let chores : List (Timed (Chore String)) := [⟨0, .call "alice"⟩, ⟨50, .call "alice"⟩,
      ⟨55, .call "alice"⟩, ⟨58, .call "bob"⟩, ⟨60, .sweep⟩, ⟨60, .call "alice"⟩,
      ⟨70, .call "alice"⟩, ⟨80, .call "alice"⟩, ⟨120, .call "alice"⟩]
    let log := Chore.log request (fun l now => (l.sweep now).2) (empty 60 2) chores
    InOrder chores ∧ admitted "alice" 45 60 log = 3 ∧ admitted "alice" 45 60 log ≤ 2 * 2 := by
  intro chores log
  have horder : InOrder chores := by decide
  exact ⟨horder, by decide, admitted_le 60 2 chores horder "alice" 45⟩

end RateLimiter

end Colloquy
