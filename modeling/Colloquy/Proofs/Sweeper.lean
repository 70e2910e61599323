import Colloquy.Sweeper
import Colloquy.Proofs.RateLimiter
import Colloquy.Proofs.Sweeping
/-!
# How long the sweeper lets things stand

What stands at a desk was live at the latest sweep, or came after it
(`Desk.Swept`), and the next sweep comes an interval later at most. So nothing
stands for longer than it is live, and an interval on top (`Desk.KeepsFor`).

A tick may come late, with calls in between, and then those it has missed are
skipped (`nextDue`). Where ticks come at their own instants, as in `advance`,
none is missed.
-/

namespace Colloquy

/-! ## Values that last -/

namespace Table

variable {κ α : Type} {t : Table κ α} {ending : α → Nat} {instant : Nat}

/-- Every value lasts until an instant, or longer. -/
def LastsUntil (t : Table κ α) (ending : α → Nat) (instant : Nat) : Prop :=
  ∀ e ∈ t.entries, instant ≤ ending e.2

theorem LastsUntil.keep (h : t.LastsUntil ending instant) (test : α → Bool) :
    (t.keep test).LastsUntil ending instant :=
  fun e he => h e (List.mem_filter.1 he).1

/-- What a test keeps lasts as long as the test says. -/
theorem lastsUntil_keep {test : α → Bool} (htest : ∀ v, test v = true → instant ≤ ending v) :
    (t.keep test).LastsUntil ending instant :=
  fun e he => htest e.2 (List.mem_filter.1 he).2

variable [DecidableEq κ]

theorem LastsUntil.erase (h : t.LastsUntil ending instant) (key : κ) :
    (t.erase key).LastsUntil ending instant :=
  fun e he => h e (List.mem_filter.1 he).1

theorem LastsUntil.put (h : t.LastsUntil ending instant) (key : κ) {value : α}
    (hvalue : instant ≤ ending value) : (t.put key value).LastsUntil ending instant := by
  intro e he
  rcases mem_put he with rfl | he
  · exact hvalue
  · exact h e he

end Table

/-! ## What calls and sweeps leave -/

namespace ResponseCache

variable {c : ResponseCache} {instant : Nat}

/-- Every entry was live at an instant, or came later. -/
def Swept (c : ResponseCache) (instant : Nat) : Prop :=
  c.entries.LastsUntil (fun e => e.createdAt + c.ttl) instant

theorem mem_sweep {now : Nat} {e : String × CacheEntry} : e ∈ (c.sweep now).2.entries.entries ↔
    e ∈ c.entries.entries ∧ now - e.2.createdAt < c.ttl := by
  simp only [sweep, Table.keep, List.mem_filter, isLive, decide_eq_true_eq]

theorem swept_sweep (c : ResponseCache) (now : Nat) : (c.sweep now).2.Swept now := by
  have hterm : ∀ e, c.isLive now e = true → now ≤ e.createdAt + c.ttl := fun e hlive => by
    have hage := of_decide_eq_true hlive
    omega
  exact Table.lastsUntil_keep hterm

theorem Swept.evict (h : c.Swept instant) : c.evict.Swept instant := by
  simp only [ResponseCache.evict]
  split
  · exact h
  · exact Table.LastsUntil.erase h _

/-- **A call brings nothing to the cache** that is older than itself. -/
theorem Swept.perform (h : c.Swept instant) {t : Timed CacheCall} (ht : instant ≤ t.instant) :
    (c.perform t).2.Swept instant := by
  obtain ⟨now, call⟩ := t
  cases call with
  | get key =>
    simp only [ResponseCache.perform, get]
    split
    · exact h
    · split
      · exact h
      · exact Table.LastsUntil.erase h key
  | set key text =>
    have hnew : ∀ ttl, instant ≤ now + ttl := fun ttl => Nat.le_trans ht (Nat.le_add_right _ _)
    simp only [ResponseCache.perform, set]
    split
    · exact h
    · split
      · exact Table.LastsUntil.put h.evict key (hnew _)
      · exact Table.LastsUntil.put h key (hnew _)
  | clear => exact fun e he => by cases he

theorem perform_ttl (t : Timed CacheCall) : (c.perform t).2.ttl = c.ttl := by
  obtain ⟨instant, call⟩ := t
  cases call with
  | get key =>
    simp only [perform, get_eq]
    exact (c.dropExpired_within instant key).ttl
  | set key text => exact c.set_ttl instant key text
  | clear => rfl

end ResponseCache

namespace SessionStore

variable {R : Type} {s : SessionStore} {instant : Nat}

/-- Every session was live at an instant, or was seen later. -/
def Swept (s : SessionStore) (instant : Nat) : Prop :=
  s.sessions.LastsUntil (fun session => session.lastSeen + s.timeout) instant

theorem mem_sweep {now : Nat} {e : (String × String) × Session} :
    e ∈ (s.sweep now).2.sessions.entries ↔
      e ∈ s.sessions.entries ∧ now - e.2.lastSeen ≤ s.timeout := by
  simp only [sweep, Table.keep, List.mem_filter, not_isExpired]

theorem swept_sweep (s : SessionStore) (now : Nat) : (s.sweep now).2.Swept now := by
  have hterm : ∀ session, (!s.isExpired now session) = true →
      now ≤ session.lastSeen + s.timeout := fun session hlive => by
    have hidle := not_isExpired.1 hlive
    omega
  exact Table.lastsUntil_keep hterm

/-- **A call leaves the session that it has seen**, and brings no other. -/
theorem Swept.perform (h : s.Swept instant) {t : Timed (SessionCall R)}
    (ht : instant ≤ t.instant) : (s.perform t).2.Swept instant := by
  obtain ⟨now, call⟩ := t
  cases call with
  | access who a =>
    simp only [SessionStore.perform, access_eq]
    refine Table.LastsUntil.put h who ?_
    have hseen := s.due_lastSeen now who
    simp only at ht ⊢
    omega
  | clear who => exact Table.LastsUntil.erase h who

theorem perform_timeout (t : Timed (SessionCall R)) : (s.perform t).2.timeout = s.timeout := by
  obtain ⟨instant, call⟩ := t
  cases call with
  | access who a => simp only [perform, access_eq]
  | clear who => rfl

end SessionStore

namespace RateLimiter

variable {l : RateLimiter} {instant : Nat}

/-- No window was closed before an instant. -/
def Swept (l : RateLimiter) (instant : Nat) : Prop :=
  l.windows.LastsUntil RateWindow.resetAt instant

theorem mem_sweep {now : Nat} {e : String × RateWindow} : e ∈ (l.sweep now).2.windows.entries ↔
    e ∈ l.windows.entries ∧ now < e.2.resetAt := by
  simp only [sweep, purge, Table.keep, List.mem_filter, decide_eq_true_eq]

theorem swept_sweep (l : RateLimiter) (now : Nat) : (l.sweep now).2.Swept now :=
  Table.lastsUntil_keep fun _ hopen => Nat.le_of_lt (of_decide_eq_true hopen)

/-- **A request leaves windows that are open**, since it purges. -/
theorem swept_request (l : RateLimiter) (t : Timed String) :
    (l.request t).2.Swept t.instant := by
  obtain ⟨now, user⟩ := t
  have hpurged : (l.purge now).Swept now := l.swept_sweep now
  simp only [request, allow]
  split
  · exact hpurged
  · rename_i w hw
    have hopen := le_resetAt_of_windowFor hw
    split
    · exact Table.LastsUntil.put hpurged user hopen
    · exact Table.LastsUntil.put hpurged user hopen

end RateLimiter

/-! ## The desk -/

/-- What a chore leaves of a component. -/
def Chore.result {σ α β γ : Type} (perform : σ → Timed α → β × σ) (sweep : σ → Nat → γ × σ)
    (s : σ) (now : Nat) : Chore α → σ
  | .call a => (perform s ⟨now, a⟩).2
  | .sweep => (sweep s now).2

/-- A chore of the cache, of the sessions or of the limiter at a desk. -/
inductive DeskChore (R : Type) where
  | cache (chore : Chore CacheCall)
  | sessions (chore : Chore (SessionCall R))
  | limiter (chore : Chore String)

namespace Desk

variable {R : Type} {d : Desk} {now : Nat}

/-- The desk behind a chore. -/
def done (d : Desk) (now : Nat) : DeskChore R → Desk
  | .cache chore =>
    { d with cache := chore.result ResponseCache.perform ResponseCache.sweep d.cache now }
  | .sessions chore =>
    { d with sessions := chore.result SessionStore.perform SessionStore.sweep d.sessions now }
  | .limiter chore =>
    { d with limiter := chore.result RateLimiter.request RateLimiter.sweep d.limiter now }

/-- For how long entries of the cache are live, and sessions that are idle, and
for how long a window is open. -/
def terms (d : Desk) : Nat × Nat × Nat := (d.cache.ttl, d.sessions.timeout, d.limiter.window)

theorem terms_done (chore : DeskChore R) : (d.done now chore).terms = d.terms := by
  cases chore with
  | cache chore =>
    cases chore with
    | call a => exact congrArg (·, d.terms.2) (ResponseCache.perform_ttl ⟨now, a⟩)
    | sweep => rfl
  | sessions chore =>
    cases chore with
    | call a =>
      exact congrArg (d.cache.ttl, ·, d.limiter.window) (SessionStore.perform_timeout ⟨now, a⟩)
    | sweep => rfl
  | limiter chore =>
    cases chore with
    | call user =>
      exact congrArg (d.cache.ttl, d.sessions.timeout, ·)
        (RateLimiter.allow_rules (l := d.limiter) now user).1
    | sweep => rfl

/-- **What stands at a desk was live at an instant**, or came later. -/
structure Swept (d : Desk) (instant : Nat) : Prop where
  cache : d.cache.Swept instant
  sessions : d.sessions.Swept instant
  limiter : d.limiter.Swept instant

/-- Everything was live when time began. -/
theorem swept_zero (d : Desk) : d.Swept 0 :=
  ⟨fun _ _ => Nat.zero_le _, fun _ _ => Nat.zero_le _, fun _ _ => Nat.zero_le _⟩

/-- A desk is swept as of the instant of a sweep. -/
theorem swept_sweep (d : Desk) (now : Nat) : (d.sweep now).Swept now :=
  ⟨d.cache.swept_sweep now, d.sessions.swept_sweep now, d.limiter.swept_sweep now⟩

theorem Swept.sweep {instant : Nat} (h : d.Swept instant) (now : Nat) :
    (d.sweep now).Swept instant :=
  ⟨Table.LastsUntil.keep h.cache _, Table.LastsUntil.keep h.sessions _,
    Table.LastsUntil.keep h.limiter _⟩

/-- **A chore brings nothing that is older.** -/
theorem Swept.done {instant : Nat} (h : d.Swept instant) (hnow : instant ≤ now)
    (chore : DeskChore R) : (d.done now chore).Swept instant := by
  cases chore with
  | cache chore =>
    cases chore with
    | call a => exact { h with cache := h.cache.perform hnow }
    | sweep => exact { h with cache := Table.LastsUntil.keep h.cache _ }
  | sessions chore =>
    cases chore with
    | call a => exact { h with sessions := h.sessions.perform hnow }
    | sweep => exact { h with sessions := Table.LastsUntil.keep h.sessions _ }
  | limiter chore =>
    cases chore with
    | call user =>
      have hopen := d.limiter.swept_request ⟨now, user⟩
      exact { h with limiter := fun e he => Nat.le_trans hnow (hopen e he) }
    | sweep => exact { h with limiter := Table.LastsUntil.keep h.limiter _ }

/-- **Nothing stands for longer than it is live**, and some time on top. -/
structure KeepsFor (d : Desk) (now more : Nat) : Prop where
  cache : ∀ e ∈ d.cache.entries.entries, now - e.2.createdAt < d.cache.ttl + more
  sessions : ∀ e ∈ d.sessions.sessions.entries, now - e.2.lastSeen < d.sessions.timeout + more
  windows : ∀ e ∈ d.limiter.windows.entries, now < e.2.resetAt + more

/-- A desk that was swept not long ago keeps things not much longer. -/
theorem Swept.keepsFor {instant more : Nat} (h : d.Swept instant) (hmore : 0 < more)
    (hnow : now < instant + more) : d.KeepsFor now more := by
  refine ⟨fun e he => ?_, fun e he => ?_, fun e he => ?_⟩
  · have hlive : instant ≤ e.2.createdAt + d.cache.ttl := h.cache e he
    omega
  · have hlive : instant ≤ e.2.lastSeen + d.sessions.timeout := h.sessions e he
    omega
  · have hopen : instant ≤ e.2.resetAt := h.limiter e he
    omega

end Desk

/-! ## The sweeper -/

namespace Sweeper

variable {R : Type} {s : Sweeper}

/-- The next tick behind one that was due at an instant and has come now. When it has
come more than five milliseconds late, those that fell due meanwhile are skipped. -/
def nextDue (interval due now : Nat) : Nat :=
  if now ≤ due + 5 then due + interval else now + interval - (now - due) % interval

theorem lt_nextDue {interval : Nat} (hinterval : 0 < interval) (due now : Nat) :
    due < nextDue interval due now := by
  have hpart := Nat.mod_lt (now - due) hinterval
  rw [nextDue]
  split <;> omega

theorem nextDue_le {interval due now : Nat} (hdue : due ≤ now) :
    nextDue interval due now ≤ now + interval := by
  rw [nextDue]
  split <;> omega

/-- A tick that is due sweeps the desk, at the instant at which it comes. -/
def tick (s : Sweeper) : Sweeper :=
  match s.nextTick with
  | none => s
  | some due =>
    if due ≤ s.now then
      { s with desk := s.desk.sweep s.now, nextTick := some (nextDue s.interval due s.now) }
    else s

/-- What happens at the desk. A chore is done; time passes, with the ticks at their
own instants or without any; a tick comes that is due; or the sweeper is
cancelled. -/
inductive Move (R : Type) where
  | chore (chore : DeskChore R)
  | advance (ms : Nat)
  | wait (ms : Nat)
  | tick
  | cancel

/-- One move. -/
def step (s : Sweeper) : Move R → Sweeper
  | .chore chore => { s with desk := s.desk.done s.now chore }
  | .advance ms => s.advance ms
  | .wait ms => { s with now := s.now + ms }
  | .tick => s.tick
  | .cancel => s.cancel

/-- The sweeper behind some moves. -/
def after (s : Sweeper) (moves : List (Move R)) : Sweeper := moves.foldl step s

/-- The ticks that are due have come. -/
def Settled (s : Sweeper) : Prop := ∀ due, s.nextTick = some due → s.now < due

/-! ### Ticks at their own instants -/

/-- What a tick in a stretch of time leaves. -/
def tickAt (s : Sweeper) (t : Nat) : Sweeper :=
  { s with desk := s.desk.sweep t, nextTick := some (t + s.interval) }

/-- The first of the ticks in a stretch of time, unless there is none. -/
theorem runTicks_succ (s : Sweeper) (instant bound : Nat) :
    (∃ t, s.nextTick = some t ∧ t ≤ instant ∧
      s.runTicks instant (bound + 1) = (s.tickAt t).runTicks instant bound) ∨
      (∀ t, s.nextTick = some t → instant < t) ∧ s.runTicks instant (bound + 1) = s := by
  cases hnext : s.nextTick with
  | none =>
    refine .inr ⟨nofun, ?_⟩
    simp only [runTicks, hnext]
  | some t =>
    by_cases ht : t ≤ instant
    · refine .inl ⟨t, rfl, ht, ?_⟩
      simp only [runTicks, hnext, if_pos ht]
      rfl
    · refine .inr ⟨fun t' ht' => ?_, ?_⟩
      · cases ht'
        exact Nat.not_le.1 ht
      · simp only [runTicks, hnext, if_neg ht]

/-- **What a tick keeps, the ticks of a stretch keep.** -/
theorem runTicks_keeps {I : Sweeper → Prop} (instant : Nat)
    (hstep : ∀ s t, I s → s.nextTick = some t → t ≤ instant → I (s.tickAt t)) (bound : Nat) :
    ∀ s, I s → I (s.runTicks instant bound) := by
  induction bound with
  | zero => exact fun s hs => hs
  | succ bound ih =>
    intro s hs
    rcases s.runTicks_succ instant bound with ⟨t, hnext, ht, hrun⟩ | ⟨-, hrun⟩
    · rw [hrun]
      exact ih _ (hstep s t hs hnext ht)
    · rwa [hrun]

/-- There are as many ticks in a stretch as instants, at most. -/
theorem lt_of_runTicks {instant : Nat} (bound : Nat) :
    ∀ s : Sweeper, 0 < s.interval → (∀ t, s.nextTick = some t → instant < t + bound) →
      ∀ due, (s.runTicks instant bound).nextTick = some due → instant < due := by
  induction bound with
  | zero => exact fun s _ hs due hdue => hs due hdue
  | succ bound ih =>
    intro s hinterval hs
    rcases s.runTicks_succ instant bound with ⟨t, hnext, -, hrun⟩ | ⟨hsettled, hrun⟩
    · rw [hrun]
      refine ih _ hinterval fun t' ht' => ?_
      have hbound := hs t hnext
      have hnext' : t + s.interval = t' := Option.some.inj ht'
      omega
    · rwa [hrun]

/-- The clock stands still while ticks are run. -/
theorem runTicks_at (s : Sweeper) (instant now bound : Nat) :
    { s with now := now }.runTicks instant bound =
      { s.runTicks instant bound with now := now } := by
  induction bound generalizing s with
  | zero => rfl
  | succ bound ih =>
    obtain ⟨desk, interval, clock, next⟩ := s
    cases next with
    | none => rfl
    | some t =>
      simp only [runTicks]
      split
      · exact ih ⟨desk.sweep t, interval, clock, some (t + interval)⟩
      · rfl

/-- **To advance is to wait**, and to run the ticks that have fallen due. -/
theorem advance_eq (s : Sweeper) (ms : Nat) :
    s.advance ms = { s with now := s.now + ms }.runTicks (s.now + ms) (s.now + ms + 1) :=
  (s.runTicks_at _ _ _).symm

/-- **Behind an advance all ticks have come** that were due. -/
theorem settled_advance (hinterval : 0 < s.interval) (ms : Nat) : (s.advance ms).Settled := by
  intro due hdue
  have hclock : (s.advance ms).now = s.now + ms := rfl
  rw [hclock]
  exact lt_of_runTicks _ s hinterval (fun t _ => by omega) due hdue

/-- **Ticks that have come late are soon over**: each is followed by a later one. -/
theorem settled_ticks (n : Nat) : ∀ s : Sweeper, 0 < s.interval →
    (∀ due, s.nextTick = some due → s.now < due + n) →
      (s.after (List.replicate n (.tick : Move R))).Settled := by
  induction n with
  | zero => exact fun s _ hs due hdue => hs due hdue
  | succ n ih =>
    intro s hinterval hs
    have hstep : s.after (List.replicate (n + 1) (.tick : Move R)) =
        s.tick.after (List.replicate n (.tick : Move R)) := rfl
    rw [hstep, tick]
    split
    · rename_i hnone
      exact ih s hinterval fun due hdue => by rw [hnone] at hdue; cases hdue
    · rename_i due hnext
      split
      · refine ih _ hinterval fun later hlater => ?_
        have hbound := hs due hnext
        have hmore := lt_nextDue hinterval due s.now
        rw [Option.some.inj hlater] at hmore
        exact Nat.lt_of_lt_of_le hbound (by omega)
      · exact ih s hinterval fun due' hdue' => by
          obtain rfl := Option.some.inj (hnext.symm.trans hdue')
          omega

/-! ### What every move keeps -/

/-- **The latest sweep was not long ago** when the next tick becomes due: an
interval at most. -/
structure Regular (terms : Nat × Nat × Nat) (interval latest : Nat) (s : Sweeper) : Prop where
  terms_eq : s.desk.terms = terms
  interval_eq : s.interval = interval
  past : latest ≤ s.now
  swept : s.desk.Swept latest
  next : ∀ due, s.nextTick = some due → due ≤ latest + interval

variable {terms : Nat × Nat × Nat} {interval latest : Nat}

/-- Time passes. -/
theorem Regular.wait (h : s.Regular terms interval latest) (ms : Nat) :
    { s with now := s.now + ms }.Regular terms interval latest :=
  { h with past := Nat.le_trans h.past (Nat.le_add_right _ _) }

/-- **A tick makes its sweep the latest**, unless there has been a later one. -/
theorem Regular.swept_at (h : s.Regular terms interval latest) {t next : Nat} (ht : t ≤ s.now)
    (hnext : next ≤ t + interval) :
    { s with desk := s.desk.sweep t, nextTick := some next }.Regular terms interval
      (max latest t) := by
  refine ⟨h.terms_eq, h.interval_eq, Nat.max_le.2 ⟨h.past, ht⟩, ?_, fun due hdue => ?_⟩
  · rcases Nat.le_total latest t with hle | hle
    · rw [Nat.max_eq_right hle]
      exact s.desk.swept_sweep t
    · rw [Nat.max_eq_left hle]
      exact h.swept.sweep t
  · cases hdue
    exact Nat.le_trans hnext (Nat.add_le_add_right (Nat.le_max_right _ _) _)

/-- Time passes, with the ticks at their own instants. -/
theorem Regular.advance (h : s.Regular terms interval latest) (ms : Nat) :
    ∃ latest', (s.advance ms).Regular terms interval latest' := by
  have htick : ∀ (s' : Sweeper) (t : Nat),
      (s'.now = s.now + ms ∧ ∃ latest', s'.Regular terms interval latest') →
      s'.nextTick = some t → t ≤ s.now + ms →
      (s'.tickAt t).now = s.now + ms ∧ ∃ latest', (s'.tickAt t).Regular terms interval latest' := by
    rintro s' t ⟨hnow, latest', h'⟩ - ht
    exact ⟨hnow, _, h'.swept_at (hnow ▸ ht) (Nat.le_of_eq (congrArg (t + ·) h'.interval_eq))⟩
  rw [advance_eq]
  exact (runTicks_keeps _ htick _ _ ⟨rfl, latest, h.wait ms⟩).2

/-- **Every move leaves the sweeper regular.** -/
theorem Regular.step (h : s.Regular terms interval latest) (m : Move R) :
    ∃ latest', (s.step m).Regular terms interval latest' := by
  cases m with
  | chore chore =>
    exact ⟨latest, { h with
      terms_eq := (Desk.terms_done chore).trans h.terms_eq
      swept := h.swept.done h.past chore }⟩
  | advance ms => exact h.advance ms
  | wait ms => exact ⟨latest, h.wait ms⟩
  | tick =>
    simp only [Sweeper.step, Sweeper.tick]
    split
    · exact ⟨latest, h⟩
    · split
      · rename_i due hnext hdue
        exact ⟨_, h.swept_at (Nat.le_refl _) (h.interval_eq ▸ nextDue_le hdue)⟩
      · exact ⟨latest, h⟩
  | cancel => exact ⟨latest, { h with next := nofun }⟩

/-- **The sweeper is regular behind any moves.** -/
theorem regular_after (d : Desk) (interval : Nat) (moves : List (Move R)) :
    ∃ latest, ((start d interval).after moves).Regular d.terms interval latest := by
  induction moves using List.reverseRecOn with
  | nil =>
    refine ⟨0, rfl, rfl, Nat.le_refl _, d.swept_zero, fun due hdue => ?_⟩
    simp only [after, List.foldl_nil, start] at hdue
    split at hdue
    · cases hdue
    · cases hdue
      omega
  | append_singleton moves m ih =>
    obtain ⟨latest, h⟩ := ih
    rw [after, List.foldl_concat]
    exact h.step m

/-! ### Cancellation -/

/-- Only a cancellation stops the sweeper. -/
theorem step_isFinished {m : Move R} (hm : m ≠ .cancel) :
    (s.step m).isFinished = s.isFinished := by
  cases m with
  | chore chore => rfl
  | advance ms =>
    have htick : ∀ (s' : Sweeper) (t : Nat), s'.isFinished = s.isFinished →
        s'.nextTick = some t → t ≤ s.now + ms → (s'.tickAt t).isFinished = s.isFinished := by
      rintro s' t hs' hnext -
      rw [← hs', isFinished, isFinished, hnext]
      rfl
    exact runTicks_keeps _ htick (s.now + ms + 1) s rfl
  | wait ms => rfl
  | tick =>
    simp only [step, tick]
    split
    · rfl
    · rename_i due hnext
      split
      · rw [isFinished, isFinished, hnext]
        rfl
      · rfl
  | cancel => exact absurd rfl hm

/-- A desk that is left to its chores, and that nobody sweeps. -/
def unswept (d : Desk) (now : Nat) : List (Move R) → Desk
  | [] => d
  | .chore chore :: moves => unswept (d.done now chore) now moves
  | .advance ms :: moves => unswept d (now + ms) moves
  | .wait ms :: moves => unswept d (now + ms) moves
  | .tick :: moves => unswept d now moves
  | .cancel :: moves => unswept d now moves

/-- **A sweeper that was cancelled sweeps no more**, and stays so. -/
theorem after_of_finished (moves : List (Move R)) : ∀ s : Sweeper, s.nextTick = none →
    (s.after moves).nextTick = none ∧ (s.after moves).desk = unswept s.desk s.now moves := by
  induction moves with
  | nil => exact fun s hnext => ⟨hnext, rfl⟩
  | cons m moves ih =>
    intro s hnext
    cases m with
    | chore chore => exact ih { s with desk := s.desk.done s.now chore } hnext
    | advance ms =>
      have hstill : s.advance ms = { s with now := s.now + ms } := by
        simp only [advance, runTicks, hnext]
      have hstep : s.after (.advance ms :: moves) = (s.advance ms).after moves := rfl
      rw [hstep, hstill]
      exact ih { s with now := s.now + ms } hnext
    | wait ms => exact ih { s with now := s.now + ms } hnext
    | tick =>
      have hstill : s.tick = s := by simp only [tick, hnext]
      have hstep : s.after (.tick :: moves) = s.tick.after moves := rfl
      rw [hstep, hstill]
      exact ih s hnext
    | cancel => exact ih s.cancel rfl

/-! ### The law -/

/-- Behind moves without a cancellation the sweeper runs. -/
theorem isFinished_after (moves : List (Move R)) (hmoves : .cancel ∉ moves) :
    (s.after moves).isFinished = s.isFinished := by
  induction moves generalizing s with
  | nil => rfl
  | cons m moves ih =>
    rw [List.mem_cons, not_or] at hmoves
    exact (ih hmoves.2).trans (step_isFinished (Ne.symm hmoves.1))

/-- **How long things stand while the sweeper runs.** Whatever chores are done at the
desk and however time passes, the sweeper runs until it is cancelled. When the ticks
that were due have come, no entry of the cache is as old as its term and an interval,
no session has been idle for its term and an interval, and no window was closed an
interval ago; and the ticks do come. A sweep takes nothing that is still live, and
everything else. Behind a cancellation there is no sweep: the desk is left to its
chores. -/
theorem retention (d : Desk) {interval : Nat} (hinterval : 0 < interval)
    (moves : List (Move R)) :
    let s := (start d interval).after moves
    s.desk.terms = d.terms ∧
      (.cancel ∉ moves → s.isFinished = false ∧ (s.Settled → s.desk.KeepsFor s.now interval) ∧
        (∀ ms, (s.advance ms).Settled) ∧
        ∃ ticks, (s.after (List.replicate ticks (.tick : Move R))).Settled) ∧
      (∀ t, let swept := s.desk.sweep t
        (∀ e, e ∈ swept.cache.entries.entries ↔
          e ∈ s.desk.cache.entries.entries ∧ t - e.2.createdAt < d.cache.ttl) ∧
        (∀ e, e ∈ swept.sessions.sessions.entries ↔
          e ∈ s.desk.sessions.sessions.entries ∧ t - e.2.lastSeen ≤ d.sessions.timeout) ∧
        ∀ e, e ∈ swept.limiter.windows.entries ↔
          e ∈ s.desk.limiter.windows.entries ∧ t < e.2.resetAt) ∧
      ∀ later : List (Move R), (s.cancel.after later).isFinished = true ∧
        (s.cancel.after later).desk = unswept s.desk s.now later := by
  intro s
  obtain ⟨latest, h⟩ := regular_after d interval moves
  have hpositive : 0 < s.interval := Nat.lt_of_lt_of_eq hinterval h.interval_eq.symm
  have hruns : .cancel ∉ moves → s.isFinished = false := fun hmoves => by
    rw [isFinished_after moves hmoves, isFinished, start, if_neg (Nat.pos_iff_ne_zero.1 hinterval)]
    rfl
  refine ⟨h.terms_eq, fun hmoves => ⟨hruns hmoves, fun hsettled => ?_, settled_advance hpositive,
    ?_⟩, fun t => ?_, fun later => ?_⟩
  · -- the next tick is yet to come, and it comes an interval after the latest at most
    obtain ⟨due, hnext⟩ := Option.isSome_iff_exists.1 (Option.isNone_eq_false_iff.1 (hruns hmoves))
    exact h.swept.keepsFor hinterval (Nat.lt_of_lt_of_le (hsettled due hnext) (h.next due hnext))
  · exact ⟨s.now + 1, settled_ticks _ s hpositive fun due _ => by omega⟩
  · have hcache : s.desk.cache.ttl = d.cache.ttl := congrArg Prod.fst h.terms_eq
    have hsessions : s.desk.sessions.timeout = d.sessions.timeout :=
      congrArg (fun terms => terms.2.1) h.terms_eq
    rw [← hcache, ← hsessions]
    exact ⟨fun _ => ResponseCache.mem_sweep, fun _ => SessionStore.mem_sweep,
      fun _ => RateLimiter.mem_sweep⟩
  · obtain ⟨hstopped, hdesk⟩ := after_of_finished later s.cancel rfl
    refine ⟨?_, hdesk⟩
    rw [isFinished, hstopped]
    rfl

/-- A reply, a session and a window that last for sixty milliseconds, and a sweep every
thirty. A tick comes thirty-one milliseconds late, and one is skipped; the session that
was opened before it stands, and the reply is gone. -/
theorem retention_of_late_tick :
    let d := { Desk.ofSettings {} .empty with
      cache := .empty 10 60, sessions := .empty 60, limiter := .empty 60 5 }
    let moves : List (Move Unit) := [.chore (.cache (.call (.set "hi" "hello"))),
      .chore (.sessions (.call (.access ("alice", "lobby") .getOrCreate))),
      .chore (.limiter (.call "alice")), .wait 61,
      .chore (.sessions (.call (.access ("alice", "lobby") .getOrCreate))), .tick, .advance 29]
    let s := (start d 30).after moves
    s.desk.KeepsFor 90 30 ∧ s.desk.cache.size = 0 ∧ s.desk.sessions.size = 1 := by
  intro d moves s
  obtain ⟨-, hruns, -, -⟩ := retention d (show 0 < 30 by decide) moves
  obtain ⟨-, hkeeps, -, -⟩ := hruns (by simp [moves])
  have hnext : s.nextTick = some 120 := by decide +kernel
  refine ⟨hkeeps fun due hdue => ?_, by decide +kernel, by decide +kernel⟩
  rw [← Option.some.inj (hnext.symm.trans hdue)]
  decide

end Sweeper

end Colloquy
