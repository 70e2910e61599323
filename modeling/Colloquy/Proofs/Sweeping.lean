import Colloquy.Proofs.RateLimiter.Windows
import Colloquy.Proofs.ResponseCache.Retention
import Colloquy.Proofs.Session
/-!
# Sweeps go unnoticed

The cache, the session store and the limiter each drop what has expired when
they come across it, and can be swept in between. No call is answered
differently for that (`answers_eq_unswept`). A sweep makes the cache smaller,
so that a later write may evict nothing where it would have evicted something;
but both caches are in step with the same calls, and these decide what a look
finds. Of the session store a call sees the live session of its pair alone, and
of the limiter what a purge leaves.
-/

namespace Colloquy

open Timed

/-- What a component is told to do: answer a call, or sweep. -/
inductive Chore (α : Type) where
  | call (call : α)
  | sweep

namespace Chore

variable {σ α β : Type}

/-- The call of a chore. -/
def call? (c : Timed (Chore α)) : Option (Timed α) :=
  match c.call with
  | .call a => some ⟨c.instant, a⟩
  | .sweep => none

/-- The calls among chores. -/
def calls (chores : List (Timed (Chore α))) : List (Timed α) := chores.filterMap call?

/-- Calls are in order where chores are. -/
theorem inOrder_calls {chores : List (Timed (Chore α))} (h : InOrder chores) :
    InOrder (calls chores) := by
  have hsame : ∀ (c : Timed (Chore α)), ∀ a ∈ call? c, a.instant = c.instant := by
    rintro ⟨instant, call | _⟩ a ha
    · cases ha
      rfl
    · cases ha
  refine List.Pairwise.filterMap call? (fun c d hcd a ha b hb => ?_) h
  rw [hsame c a ha, hsame d b hb]
  exact hcd

variable (step : σ → Timed α → β × σ) (sweep : σ → Nat → σ)

/-- The answers to the calls among chores. -/
def answers (s : σ) : List (Timed (Chore α)) → List β
  | [] => []
  | ⟨instant, .call a⟩ :: chores =>
    (step s ⟨instant, a⟩).1 :: answers (step s ⟨instant, a⟩).2 chores
  | ⟨instant, .sweep⟩ :: chores => answers (sweep s instant) chores

variable {step sweep}

/-- **Two components in step answer alike**, one of which is swept: if a call
has the same answer from both and leaves them in step, and a sweep of the one
does. What keeps them so may depend on the calls to come. -/
theorem answers_eq_of_step {R : List (Timed α) → Nat → σ → σ → Prop}
    (hcall : ∀ c rest now s s', R (c :: rest) now s s' → now ≤ c.instant →
      (step s' c).1 = (step s c).1 ∧ R rest c.instant (step s c).2 (step s' c).2)
    (hsweep : ∀ rest now s s' instant, R rest now s s' → now ≤ instant →
      R rest instant s (sweep s' instant))
    {chores : List (Timed (Chore α))} (horder : InOrder chores) {now : Nat}
    (hlater : ∀ c ∈ chores, now ≤ c.instant) {s s' : σ} (hs : R (calls chores) now s s') :
    answers step sweep s' chores = (log step s (calls chores)).map Prod.snd := by
  -- along the chores, from any two states in step; a sweep leaves the unswept one alone
  induction chores generalizing now s s' with
  | nil => rfl
  | cons c chores ih =>
    obtain ⟨hnext, horder'⟩ := inOrder_cons.1 horder
    have hnow := hlater c (.head _)
    obtain ⟨instant, call | _⟩ := c
    · obtain ⟨hanswer, hs'⟩ := hcall _ _ _ _ _ hs hnow
      exact congrArg₂ List.cons hanswer (ih horder' hnext hs')
    · exact ih horder' hnext (hsweep _ _ _ _ _ hs hnow)

end Chore

/-! ## The cache -/

namespace ResponseCache

/-- Two caches in step with the same calls, before further ones. -/
def InStep (maxSize ttl : Nat) (rest : List (Timed CacheCall)) (now : Nat)
    (c c' : ResponseCache) : Prop :=
  ∃ done, Kept maxSize ttl now done c ∧ Kept maxSize ttl now done c' ∧
    InOrder (done ++ rest) ∧ Apart (done ++ rest)

variable {maxSize ttl now : Nat} {rest : List (Timed CacheCall)} {c c' : ResponseCache}

theorem InStep.perform {t : Timed CacheCall} (h : InStep maxSize ttl (t :: rest) now c c')
    (hnow : now ≤ t.instant) : (c'.perform t).1 = (c.perform t).1 ∧
      InStep maxSize ttl rest t.instant (c.perform t).2 (c'.perform t).2 := by
  obtain ⟨done, hc, hc', horder, hapart⟩ := h
  rw [List.append_cons] at horder hapart
  have horder' : InOrder (done ++ [t]) := (List.pairwise_append.1 horder).1
  have hapart' : Apart (done ++ [t]) := hapart.of_append
  refine ⟨?_, done ++ [t], (hc.later hnow).perform horder' hapart',
    (hc'.later hnow).perform horder' hapart', horder, hapart⟩
  obtain ⟨instant, call⟩ := t
  cases call with
  | get key =>
    -- what either finds is decided by the calls
    have hdone := (inOrder_concat.1 horder').1
    simp only [ResponseCache.perform, get_eq]
    refine Option.ext fun text => ?_
    rw [(hc.later hnow).live?_eq_some_iff hdone hapart'.of_append,
      (hc'.later hnow).live?_eq_some_iff hdone hapart'.of_append]
  | set key text => rfl
  | clear => rfl

theorem InStep.sweep (h : InStep maxSize ttl rest now c c') {instant : Nat}
    (hnow : now ≤ instant) : InStep maxSize ttl rest instant c (c'.sweep instant).2 := by
  obtain ⟨done, hc, hc', hdone⟩ := h
  have hlater := hc'.later hnow
  exact ⟨done, hc.later hnow, hlater.pruned (pruned_sweep hlater.keyed instant), hdone⟩

end ResponseCache

/-! ## The session store -/

namespace SessionStore

variable {R : Type} {now : Nat} {s s' : SessionStore}

/-- Two stores with the same live sessions. -/
structure Alike (now : Nat) (s s' : SessionStore) : Prop where
  timeout_eq : s'.timeout = s.timeout
  opened_eq : s'.opened = s.opened
  keyed : s'.sessions.Keyed
  live_eq : ∀ who, s'.live? now who = s.live? now who

/-- The sessions that stay alive are among those that are. -/
theorem live?_later (s : SessionStore) {instant : Nat} (h : now ≤ instant)
    (who : String × String) : s.live? instant who =
      (s.live? now who).filter fun session => !s.isExpired instant session := by
  rw [live?, live?, Option.filter_filter]
  refine congrArg (Option.filter · _) (funext fun session => ?_)
  simp only [isExpired]
  grind

theorem Alike.later (h : Alike now s s') {instant : Nat} (hnow : now ≤ instant) :
    Alike instant s s' := by
  refine { h with live_eq := fun who => ?_ }
  rw [live?_later s hnow, live?_later s' hnow, h.live_eq]
  simp only [isExpired, h.timeout_eq]

/-- **An access of either works on the same session.** -/
theorem Alike.current_eq (h : Alike now s s') (who : String × String) :
    s'.current now who.1 who.2 = s.current now who.1 who.2 := by
  rw [SessionStore.current_eq, SessionStore.current_eq, h.live_eq, h.opened_eq]

theorem Alike.access (h : Alike now s s') (who : String × String) (a : SessionAccess R) :
    (s'.access now who a).1 = (s.access now who a).1 ∧
      Alike now (s.access now who a).2 (s'.access now who a).2 := by
  simp only [access_eq, due, h.current_eq]
  refine ⟨trivial, h.timeout_eq, rfl, h.keyed.put _ _, fun q => ?_⟩
  have hq := h.live_eq q
  simp only [live?, isExpired, Table.get?_put, h.timeout_eq] at hq ⊢
  split
  · rfl
  · exact hq

theorem Alike.clear (h : Alike now s s') (who : String × String) :
    Alike now (s.clear who.1 who.2) (s'.clear who.1 who.2) := by
  refine ⟨h.timeout_eq, h.opened_eq, h.keyed.erase _, fun q => ?_⟩
  have hq := h.live_eq q
  simp only [live?, isExpired, SessionStore.clear, Table.get?_erase, h.timeout_eq] at hq ⊢
  split
  · rfl
  · exact hq

theorem Alike.perform (h : Alike now s s') {t : Timed (SessionCall R)} (hnow : now ≤ t.instant) :
    (s'.perform t).1 = (s.perform t).1 ∧ Alike t.instant (s.perform t).2 (s'.perform t).2 := by
  have hlater := h.later hnow
  obtain ⟨instant, call⟩ := t
  cases call with
  | access who a =>
    obtain ⟨hanswer, halike⟩ := hlater.access who a
    exact ⟨congrArg some hanswer, halike⟩
  | clear who => exact ⟨rfl, hlater.clear who⟩

/-- A sweep takes no live session away. -/
theorem Alike.sweep (h : Alike now s s') : Alike now s (s'.sweep now).2 := by
  refine ⟨h.timeout_eq, h.opened_eq, h.keyed.keep _, fun who => ?_⟩
  have hkeep := Table.get?_keep h.keyed (fun session => !s'.isExpired now session) who
  rw [← h.live_eq, live?, live?]
  refine (congrArg (Option.filter _) hkeep).trans ?_
  -- the test of a sweep is the one that a look makes anyway
  rw [Option.filter_filter]
  exact congrArg (Option.filter · _) (funext fun session => Bool.and_self _)

end SessionStore

/-! ## The limiter -/

namespace RateLimiter

variable {now : Nat} {l l' : RateLimiter}

/-- A purge makes up for earlier ones. -/
theorem purge_purge (l : RateLimiter) {instant : Nat} (h : now ≤ instant) :
    (l.purge now).purge instant = l.purge instant := by
  simp only [purge, Table.keep, List.filter_filter]
  refine congrArg (fun entries => { l with windows := ⟨entries⟩ }) (List.filter_congr fun e _ => ?_)
  grind

/-- A request purges first, so that it does not tell limiters apart that are
alike when purged. -/
theorem allow_of_purge_eq (h : l'.purge now = l.purge now) (user : String) :
    l'.allow now user = l.allow now user := by
  simp only [allow, h]

end RateLimiter

/-- **Sweeps go unnoticed.** Whatever calls are made of a cache that writes no
two keys at one instant, of a session store, or of a limiter, and however they
are interspersed with sweeps, each is answered as it is without these. -/
theorem answers_eq_unswept :
    (∀ (maxSize ttl : Nat) (chores : List (Timed (Chore CacheCall))), InOrder chores →
        ResponseCache.Apart (Chore.calls chores) →
        Chore.answers ResponseCache.perform (fun c now => (c.sweep now).2)
            (ResponseCache.empty maxSize ttl) chores =
          (log ResponseCache.perform (ResponseCache.empty maxSize ttl)
            (Chore.calls chores)).map Prod.snd) ∧
      (∀ (R : Type) (timeout : Nat) (chores : List (Timed (Chore (SessionCall R)))),
        InOrder chores →
        Chore.answers SessionStore.perform (fun s now => (s.sweep now).2)
            (SessionStore.empty timeout) chores =
          (log SessionStore.perform (SessionStore.empty timeout)
            (Chore.calls chores)).map Prod.snd) ∧
      ∀ (window maxRequests : Nat) (chores : List (Timed (Chore String))), InOrder chores →
        Chore.answers RateLimiter.request (fun l now => (l.sweep now).2)
            (RateLimiter.empty window maxRequests) chores =
          (log RateLimiter.request (RateLimiter.empty window maxRequests)
            (Chore.calls chores)).map Prod.snd := by
  refine ⟨fun maxSize ttl chores horder hapart => ?_, fun R timeout chores horder => ?_,
    fun window maxRequests chores horder => ?_⟩
  · refine Chore.answers_eq_of_step (R := ResponseCache.InStep maxSize ttl)
      (fun c rest now s s' hs hnow => hs.perform hnow)
      (fun rest now s s' instant hs hnow => hs.sweep hnow) horder (fun _ _ => Nat.zero_le _) ?_
    have hempty := ResponseCache.kept_empty maxSize ttl 0
    exact ⟨[], hempty, hempty, Chore.inOrder_calls horder, hapart⟩
  · refine Chore.answers_eq_of_step (R := fun _ => SessionStore.Alike)
      (fun c rest now s s' hs hnow => hs.perform hnow)
      (fun rest now s s' instant hs hnow => (hs.later hnow).sweep) horder
      (fun _ _ => Nat.zero_le _) ?_
    exact ⟨rfl, rfl, Table.keyed_empty, fun _ => rfl⟩
  · refine Chore.answers_eq_of_step
      (R := fun _ now l l' => ∀ instant, now ≤ instant → l'.purge instant = l.purge instant)
      (fun c rest now l l' hl hnow => ?_) (fun rest now l l' instant hl hnow later hlater => ?_)
      horder (fun _ _ => Nat.zero_le _) fun _ _ => rfl
    · have hallow := RateLimiter.allow_of_purge_eq (hl c.instant hnow) c.call
      exact ⟨congrArg Prod.fst hallow,
        fun instant _ => congrArg (RateLimiter.purge · instant) (congrArg Prod.snd hallow)⟩
    · exact (RateLimiter.purge_purge l' hlater).trans (hl later (Nat.le_trans hnow hlater))

/-- A sweep that makes room, so that the third write evicts nothing; one that
comes as a session expires, and one that comes as a window closes. -/
theorem answers_eq_unswept_at_expiry :
    let cached : List (Timed (Chore CacheCall)) := [⟨0, .call (.set "hi" "one")⟩,
      ⟨50, .call (.set "yo" "two")⟩, ⟨60, .sweep⟩, ⟨70, .call (.set "sup" "three")⟩,
      ⟨80, .call (.get "yo")⟩, ⟨80, .call (.get "hi")⟩]
    let visits : List (Timed (Chore (SessionCall Nat))) :=
      [⟨0, .call (.access ("alice", "lobby") (.updateWith fun context =>
          (context.length, [("topic", .text "rust")])))⟩, ⟨60, .sweep⟩,
        ⟨60, .call (.access ("alice", "lobby") (.updateWith fun context =>
          (context.length, context)))⟩, ⟨121, .sweep⟩,
        ⟨121, .call (.access ("alice", "lobby") (.updateWith fun context =>
          (context.length, context)))⟩]
    let requests : List (Timed (Chore String)) := [⟨0, .call "alice"⟩, ⟨59, .sweep⟩,
      ⟨59, .call "alice"⟩, ⟨60, .sweep⟩, ⟨60, .call "alice"⟩]
    Chore.answers ResponseCache.perform (fun c now => (c.sweep now).2)
        (ResponseCache.empty 2 60) cached = [none, none, none, some "two", none] ∧
      Chore.answers SessionStore.perform (fun s now => (s.sweep now).2)
        (SessionStore.empty 60) visits = [some (.result 0), some (.result 1), some (.result 0)] ∧
      Chore.answers RateLimiter.request (fun l now => (l.sweep now).2)
        (RateLimiter.empty 60 1) requests = [.allowed, .denied, .allowed] := by
  intro cached visits requests
  obtain ⟨hcache, hstore, hlimiter⟩ := answers_eq_unswept
  refine ⟨(hcache 2 60 cached (by decide) (by decide)).trans (by decide),
    (hstore Nat 60 visits (by decide)).trans rfl,
    (hlimiter 60 1 requests (by decide)).trans (by decide)⟩

end Colloquy
