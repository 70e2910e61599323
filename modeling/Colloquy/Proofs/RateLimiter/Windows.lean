import Colloquy.Proofs.Table.Keys
import Colloquy.Proofs.Timeline
import Colloquy.RateLimiter
/-!
# The windows of one user

The limiter keeps the windows of all users in one table, drops closed ones
whenever anybody asks, and stops counting at its limit. None of this shows to
a user: the verdicts on their requests are those of a rule that reads the times
of these alone (`allow_eq_ruled`). What the table has of a user is their window
of the rule, counted up to the limit, until it is closed (`Tracks`).
-/

namespace Colloquy

namespace RateLimiter

open Timed

/-! ## The rule -/

/-- **The windows that request times fall in.** The first request opens one,
and so does each first request at or after its end. -/
def windowsOf (w : Nat) : List Nat → List (List Nat)
  | [] => []
  | start :: times =>
    (start :: times.takeWhile (· < start + w)) :: windowsOf w (times.dropWhile (· < start + w))
  termination_by times => times.length
  decreasing_by exact Nat.lt_succ_of_le (List.dropWhile_sublist _).length_le

/-- The verdict on a request, by its place in its window. -/
def verdictAt (m place : Nat) : Verdict := if place < m then .allowed else .denied

/-- **The rule**: of each window the first `m` requests are allowed. -/
def ruled (w m : Nat) (times : List Nat) : List Verdict :=
  (windowsOf w times).flatMap fun requests => (List.range requests.length).map (verdictAt m)

/-- A window of the rule: when it was opened, and how many requests have
fallen in it. -/
structure Opened where
  start : Nat
  count : Nat

/-- The window that a request falls in: the latest one of its user, or a new
one if there is none or that one has ended. -/
def Opened.for (w : Nat) (o : Option Opened) (now : Nat) : Opened :=
  match o with
  | some o => if now < o.start + w then o else ⟨now, 0⟩
  | none => ⟨now, 0⟩

/-- A window with one more request. -/
def Opened.counted (o : Opened) : Opened := { o with count := o.count + 1 }

/-- The verdicts on requests that follow those of a window. -/
def ruledFrom (w m : Nat) (o : Option Opened) (times : List Nat) : List Verdict :=
  match o with
  | none => ruled w m times
  | some o =>
    (List.range' o.count (times.takeWhile (· < o.start + w)).length).map (verdictAt m) ++
      ruled w m (times.dropWhile (· < o.start + w))

theorem ruled_cons (w m now : Nat) (times : List Nat) :
    ruled w m (now :: times) = verdictAt m 0 :: ruledFrom w m (some ⟨now, 1⟩) times := by
  simp only [ruled, ruledFrom, windowsOf, List.flatMap_cons, List.length_cons,
    List.range_eq_range', List.range'_succ, List.map_cons, List.cons_append]

/-- **The rule takes one request at a time.** -/
theorem ruledFrom_cons (w m : Nat) (o : Option Opened) (now : Nat) (times : List Nat) :
    ruledFrom w m o (now :: times) =
      verdictAt m (Opened.for w o now).count ::
        ruledFrom w m (some (Opened.for w o now).counted) times := by
  cases o with
  | none => exact ruled_cons w m now times
  | some o =>
    by_cases hopen : now < o.start + w
    · simp only [ruledFrom, Opened.for, Opened.counted, if_pos hopen, List.takeWhile_cons,
        List.dropWhile_cons, decide_eq_true hopen, if_true, List.length_cons, List.range'_succ,
        List.map_cons, List.cons_append]
    · simp only [ruledFrom, Opened.for, if_neg hopen, List.takeWhile_cons, List.dropWhile_cons,
        decide_eq_false hopen]
      exact ruled_cons w m now times

/-! ## The table -/

/-- What the table has of a window, under a limit. -/
def kept (w m : Nat) (o : Opened) : RateWindow := ⟨min o.count m, o.start + w⟩

/-- A window is in the table while it is open. -/
theorem filter_kept (w m t : Nat) (x : Opened) :
    (some (kept w m x)).filter (fun y => t < y.resetAt) =
      if t < x.start + w then some (kept w m x) else none := by
  simp only [Option.filter_some, kept, decide_eq_true_eq]

/-- **What a limiter knows of a user**: their window, unless that has been closed
and dropped. -/
structure Tracks (w m now : Nat) (user : String) (o : Option Opened) (l : RateLimiter) : Prop where
  window_eq : l.window = w
  maxRequests_eq : l.maxRequests = m
  keyed : l.windows.Keyed
  stands : l.windows.get? user = o.map (kept w m) ∨
    l.windows.get? user = none ∧ ∀ x ∈ o, x.start + w ≤ now

variable {w m now : Nat} {user : String} {o : Option Opened} {l : RateLimiter}

theorem tracks_empty (w m now : Nat) (user : String) : Tracks w m now user none (empty w m) :=
  ⟨rfl, rfl, Table.keyed_empty, .inl rfl⟩

theorem purge_keyed (hl : l.windows.Keyed) (t : Nat) : (l.purge t).windows.Keyed := hl.keep _

/-- A purge leaves a user their window while it is open. -/
theorem Tracks.get?_purge (hl : Tracks w m now user o l) {t : Nat} (ht : now ≤ t) :
    (l.purge t).windows.get? user = (o.map (kept w m)).filter fun x => t < x.resetAt := by
  rw [purge, Table.get?_keep hl.keyed]
  rcases hl.stands with hstands | ⟨hnone, hclosed⟩
  · rw [hstands]
  · cases o with
    | none => rw [hnone]; rfl
    | some x =>
      have hpast := hclosed x rfl
      rw [hnone, Option.map_some, filter_kept, if_neg (by omega), Option.filter_none]

/-- **The window that a request falls in** is the one of the rule. -/
theorem Tracks.windowFor (hl : Tracks w m now user o l) {t : Nat} (ht : now ≤ t)
    (hrep : t + w < Clock.horizon) :
    (l.purge t).windowFor t user = some (kept w m (Opened.for w o t)) := by
  have hnew : (Clock.later? t l.window).map (fun resetAt => (⟨0, resetAt⟩ : RateWindow)) =
      some (kept w m ⟨t, 0⟩) := by
    rw [hl.window_eq, Clock.later?, if_pos hrep, kept, Nat.zero_min]
    rfl
  rw [RateLimiter.windowFor, hl.get?_purge ht]
  cases o with
  | none => exact hnew
  | some x =>
    rw [Option.map_some, filter_kept]
    by_cases hopen : t < x.start + w
    · rw [if_pos hopen, Opened.for, if_pos hopen]
    · rw [if_neg hopen, Opened.for, if_neg hopen]
      exact hnew

/-- A request in a known window is judged by its place, and counted up to the
limit. -/
theorem allow_of_windowFor {t : Nat} {x : Opened}
    (hx : (l.purge t).windowFor t user = some (kept w l.maxRequests x)) :
    l.allow t user = (verdictAt l.maxRequests x.count, { l.purge t with
      windows := (l.purge t).windows.put user (kept w l.maxRequests x.counted) }) := by
  have hmax : (l.purge t).maxRequests = l.maxRequests := rfl
  simp only [allow, hx, hmax, kept, verdictAt, Opened.counted]
  by_cases hplace : x.count < l.maxRequests
  · have hcount : min x.count l.maxRequests = x.count := by omega
    have hnext : min (x.count + 1) l.maxRequests = x.count + 1 := by omega
    rw [hcount, hnext, if_neg (by omega), if_pos hplace]
  · have hcount : min x.count l.maxRequests = l.maxRequests := by omega
    have hnext : min (x.count + 1) l.maxRequests = l.maxRequests := by omega
    rw [hcount, hnext, if_pos (Nat.le_refl _), if_neg hplace]

/-- **A user's request** gets the verdict of the rule and counts in its
window. -/
theorem Tracks.own (hl : Tracks w m now user o l) {t : Nat} (ht : now ≤ t)
    (hrep : t + w < Clock.horizon) :
    (l.allow t user).1 = verdictAt m (Opened.for w o t).count ∧
      Tracks w m t user (some (Opened.for w o t).counted) (l.allow t user).2 := by
  have hallow := allow_of_windowFor (hl.maxRequests_eq.symm ▸ hl.windowFor ht hrep)
  rw [hl.maxRequests_eq] at hallow
  rw [hallow]
  exact ⟨rfl, hl.window_eq, hl.maxRequests_eq, (purge_keyed hl.keyed t).put _ _,
    .inl (Table.get?_put_self _ _ _)⟩

/-- What another user's request leaves in the table of this one. -/
theorem allow_other {other : String} (hne : other ≠ user) (t : Nat) :
    (l.allow t other).2.windows.get? user = (l.purge t).windows.get? user := by
  simp only [allow]
  split
  · rfl
  · split <;> rw [Table.get?_put, if_neg hne]

theorem allow_keyed (hl : l.windows.Keyed) (t : Nat) (other : String) :
    (l.allow t other).2.windows.Keyed := by
  simp only [allow]
  split
  · exact purge_keyed hl t
  · split <;> exact (purge_keyed hl t).put _ _

theorem allow_rules (t : Nat) (other : String) :
    (l.allow t other).2.window = l.window ∧ (l.allow t other).2.maxRequests = l.maxRequests := by
  simp only [allow]
  split
  · exact ⟨rfl, rfl⟩
  · split <;> exact ⟨rfl, rfl⟩

/-- **Another user's request** purges a window at most when it is closed. -/
theorem Tracks.other (hl : Tracks w m now user o l) {t : Nat} (ht : now ≤ t) {other : String}
    (hne : other ≠ user) : Tracks w m t user o (l.allow t other).2 := by
  obtain ⟨hwindow, hmax⟩ := allow_rules (l := l) t other
  refine ⟨hwindow.trans hl.window_eq, hmax.trans hl.maxRequests_eq,
    allow_keyed hl.keyed t other, ?_⟩
  rw [allow_other hne, hl.get?_purge ht]
  cases o with
  | none => exact .inl rfl
  | some x =>
    rw [Option.map_some, filter_kept]
    by_cases hopen : t < x.start + w
    · exact .inl (if_pos hopen)
    · refine .inr ⟨if_neg hopen, fun y hy => ?_⟩
      cases hy
      omega

/-! ## Runs -/

/-- A request of a user. -/
def request (l : RateLimiter) (t : Timed String) : Verdict × RateLimiter :=
  l.allow t.instant t.call

/-- The verdicts that a log has for a user. -/
def verdictsOn (user : String) (log : List (Timed String × Verdict)) : List Verdict :=
  (log.filter fun e => e.1.call = user).map Prod.snd

/-- When a user has made requests. -/
def timesOf (user : String) (calls : List (Timed String)) : List Nat :=
  (calls.filter fun c => c.call = user).map Timed.instant

/-- From wherever a user stands, the verdicts follow the rule. -/
theorem Tracks.verdicts (hl : Tracks w m now user o l) {calls : List (Timed String)}
    (horder : InOrder calls) (hlater : ∀ c ∈ calls, now ≤ c.instant)
    (hrep : ∀ c ∈ calls, c.instant + w < Clock.horizon) :
    verdictsOn user (log request l calls) = ruledFrom w m o (timesOf user calls) := by
  -- along the calls; what the table has lost of the user is in `o` still
  induction calls generalizing now o l with
  | nil => cases o <;> simp [verdictsOn, timesOf, log, ruledFrom, ruled, windowsOf]
  | cons c calls ih =>
    obtain ⟨hnext, horder'⟩ := inOrder_cons.1 horder
    have hnow := hlater c (.head _)
    have hrep' : ∀ d ∈ calls, d.instant + w < Clock.horizon := fun d hd => hrep d (.tail _ hd)
    by_cases hown : c.call = user
    · obtain ⟨hverdict, htracks⟩ := hl.own hnow (hrep c (.head _))
      have hrest := ih htracks horder' hnext hrep'
      simp only [verdictsOn, timesOf] at hrest
      simp only [verdictsOn, timesOf, log, request, List.filter_cons, hown, decide_true, if_true,
        List.map_cons, ruledFrom_cons, hverdict]
      exact congrArg _ hrest
    · have hrest := ih (hl.other hnow hown) horder' hnext hrep'
      simp only [verdictsOn, timesOf] at hrest
      simp only [verdictsOn, timesOf, log, request, List.filter_cons, hown, decide_false,
        Bool.false_eq_true, if_false]
      exact hrest

/-- **A user's verdicts are those of the rule on their own request times**,
whoever else asks in between. -/
theorem allow_eq_ruled (window maxRequests : Nat) (calls : List (Timed String))
    (horder : InOrder calls) (hrep : ∀ c ∈ calls, c.instant + window < Clock.horizon)
    (user : String) :
    verdictsOn user (log request (empty window maxRequests) calls) =
      ruled window maxRequests (timesOf user calls) :=
  (tracks_empty window maxRequests 0 user).verdicts horder (fun _ _ => Nat.zero_le _) hrep

/-- Alice's second window opens the moment her first one ends, while Bob's
request has dropped it. -/
theorem allow_eq_ruled_reopened :
    let calls : List (Timed String) := [⟨0, "alice"⟩, ⟨10, "alice"⟩, ⟨59, "alice"⟩, ⟨60, "bob"⟩,
      ⟨60, "alice"⟩, ⟨61, "alice"⟩, ⟨119, "alice"⟩]
    verdictsOn "alice" (log request (empty 60 2) calls) =
        ruled 60 2 [0, 10, 59, 60, 61, 119] ∧
      ruled 60 2 [0, 10, 59, 60, 61, 119] =
        [.allowed, .allowed, .denied, .allowed, .allowed, .denied] := by
  intro calls
  refine ⟨allow_eq_ruled 60 2 calls (by decide) (by decide) "alice", ?_⟩
  simp [ruled, windowsOf, verdictAt, List.range_succ]

end RateLimiter

end Colloquy
