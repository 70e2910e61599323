import Colloquy.Proofs.Dispatch.Step
import Colloquy.Proofs.Session
/-!
# Commands that are dropped

A command can be dropped in each of its waits, before the call is carried out
or after it. Until its exchange is saved nothing of it is recorded
(`Unrecorded`): the cache has gained no entry, no session holds a value that
it did not hold before, and no record is stored. `recorded_or_abandoned` says
that this is so wherever a command comes, up to the one step that records its
turn, and what is left of a command that is dropped on the way.
-/

namespace Colloquy

/-! ## Sessions that are not written -/

/-- Sessions with no value in them that those of another store do not have:
each is a session of that store, with its context, or is empty. -/
def SessionStore.Unwritten (s s₀ : SessionStore) : Prop :=
  ∀ who session, s.sessions.get? who = some session → session.context = [] ∨
    ∃ old, s₀.sessions.get? who = some old ∧ old.number = session.number ∧
      old.context = session.context

namespace SessionStore

theorem Unwritten.refl (s : SessionStore) : s.Unwritten s :=
  fun _ session hget => .inr ⟨session, hget, rfl, rfl⟩

/-- **To open a session writes nothing**: the live one of the pair is as it was,
and a new one is empty. -/
theorem Unwritten.getOrCreate {s s₀ : SessionStore} (hs : s.Unwritten s₀) (now : Nat)
    (user room : String) : (s.getOrCreate now user room).2.Unwritten s₀ := by
  intro who session hget
  simp only [SessionStore.getOrCreate, visit, Table.get?_put] at hget
  by_cases hwho : (user, room) = who
  · subst hwho
    rw [if_pos rfl, Option.some.injEq] at hget
    subst hget
    simp only [current]
    cases hold : s.sessions.get? (user, room) with
    | none => exact .inl rfl
    | some old =>
      by_cases hexpired : s.isExpired now old = true
      · exact .inl (by simp only [if_pos hexpired])
      · simp only [if_neg hexpired]
        exact hs (user, room) old hold
  · rw [if_neg hwho] at hget
    exact hs who session hget

end SessionStore

namespace Stage

/-- Whether a command has entered the pipeline. -/
def hasEntered : Stage → Bool
  | .asking _ _ _ _ _ _ => true
  | .saving _ _ => true
  | _ => false

/-- What a command has made of the metrics while it waits: it is counted when
it enters the pipeline, and timed when the pipeline has answered. -/
def Measured (m₀ : Metrics) : Stage → Metrics → Prop
  | .asking _ _ _ _ _ _, m => m₀.Begun m
  | .saving _ _, m => m₀.Measured m 0
  | _, m => m = m₀

end Stage

namespace Hall

variable {W : Type} {p : Ports W} {records : W → String → List (List UInt8)} {h₀ : Hall W}
  {r : Request}

/-- **Nothing of a command is recorded yet**, compared with the hall that it
began in. -/
structure Unrecorded (records : W → String → List (List UInt8)) (h₀ h : Hall W) (stage : Stage) :
    Prop where
  cache : h.desk.cache.Within h₀.desk.cache
  sessions : h.desk.sessions.Unwritten h₀.desk.sessions
  metrics : stage.Measured h₀.desk.metrics h.desk.metrics
  stored : records h.world = records h₀.world

/-- **What is left of a command that is dropped**, in the stage it was in: one request
more and one response time more, with no error, just if it had entered the
pipeline. -/
structure Abandoned (records : W → String → List (List UInt8)) (h₀ h : Hall W) (r : Request)
    (stage : Stage) : Prop where
  cache : h.desk.cache.Within h₀.desk.cache
  sessions : h.desk.sessions.Unwritten h₀.desk.sessions
  stored : ∃ more : List (List UInt8), more.length ≤ 1 ∧
    records h.world = shelve (records h₀.world) r.room more
  entered : stage.hasEntered = true → h₀.desk.metrics.Measured h.desk.metrics 0
  outside : stage.hasEntered = false → h.desk.metrics = h₀.desk.metrics

/-- The first step records nothing. -/
theorem unrecorded_begun {next : Desk × Stage} (hnext : Stage.Begun h₀.desk h₀.now r next) :
    next.2.isWaiting = true → Unrecorded records h₀ ⟨next.1, h₀.world, h₀.now⟩ next.2 := by
  intro hwaits
  cases hnext with
  | letIn => exact ⟨h₀.desk.cache.dropExpired_within _ _, .refl _, rfl, rfl⟩
  | overflow => cases hwaits
  | limited => cases hwaits
  | cached => cases hwaits
  | unknown => cases hwaits

/-- A call that fails to write stores nothing, and no other call does. -/
theorem stored_of_serve (hp : p.Shelves records) {d : Desk} {stage : Stage} {call : Call}
    (hc : stage.call? d r = some call) (w : W)
    (hfails : stage.isSaving = true → (p.serve w call).2.2 ≠ .written (.ok ())) :
    records (p.serve w call).1 = records w := by
  cases call with
  | appendRecord room record =>
    obtain ⟨-, -, hsaving⟩ := Stage.write_of_call hc
    cases hwritten : (p.appendRecord room record w).2 with
    | error e => exact hp.unwritten w room record e hwritten
    | ok stored => exact absurd (by simp only [Ports.serve, hwritten]) (hfails hsaving)
  | _ => exact Ports.serve_read (hp.read w) rfl

/-- **A command that goes on waiting has recorded nothing more.** -/
theorem Unrecorded.next (hp : p.Shelves records) {h : Hall W} {stage : Stage} {call : Call}
    {later : Nat} {next : Desk × W × Stage} (hh : Unrecorded records h₀ h stage)
    (hc : stage.call? h.desk r = some call)
    (hnext : Stage.Next p h.desk (p.serve h.world call).1 later r stage
      (p.serve h.world call).2.2 next)
    (hwaits : next.2.2.isWaiting = true) :
    Unrecorded records h₀ ⟨next.1, next.2.1, later⟩ next.2.2 := by
  obtain ⟨hcache, hsessions, hmetrics, hstored⟩ := hh
  have hserved := stored_of_serve hp hc h.world
  have hexpected := Stage.expects_of_call hc p h.world
  generalize (p.serve h.world call).2.2 = answer at hnext hserved hexpected
  cases hnext with
  | registryFailed => cases hwaits
  | unregistered => cases hwaits
  | failed => cases hwaits
  | saved => cases hwaits
  | entered =>
    exact ⟨hcache, hsessions.getOrCreate _ _ _, hmetrics, (hserved (by simp)).trans hstored⟩
  | condensing => exact ⟨hcache, hsessions, hmetrics, (hserved (by simp)).trans hstored⟩
  | read =>
    exact ⟨hcache, hsessions, Metrics.begun_of_eq hmetrics, (hserved (by simp)).trans hstored⟩
  | condensed =>
    exact ⟨hcache, hsessions, Metrics.begun_of_eq hmetrics, (hserved (by simp)).trans hstored⟩
  | unanswered => exact ⟨hcache, hsessions, hmetrics, (hserved (by simp)).trans hstored⟩
  | rested => exact ⟨hcache, hsessions, hmetrics, (hserved (by simp)).trans hstored⟩
  | answered =>
    refine ⟨hcache, hsessions, hmetrics.finish _ false, ?_⟩
    rw [hp.read _ (.encrypt _ _) rfl, hserved (by simp), hstored]
  | unwritten => exact ⟨hcache, hsessions, hmetrics, (hserved (by simp)).trans hstored⟩
  | reconnected =>
    obtain rfl : call = .reconnect := (Option.some.inj hc).symm
    exact ⟨hcache, hsessions, hmetrics, (hp.read _ .reconnect rfl).trans hstored⟩
  | stray hstray =>
    rw [hstray] at hexpected
    cases hexpected

/-- **While a command waits nothing of it is recorded.** -/
theorem Underway.unrecorded (hp : p.Shelves records) {h : Hall W} {stage : Stage}
    (hunder : Underway p h₀ r h stage) (hwaits : stage.isWaiting = true) :
    Unrecorded records h₀ h stage := by
  refine hunder.keeps (J := fun h stage => stage.isWaiting = true → Unrecorded records h₀ h stage)
    (unrecorded_begun (Stage.start_begun _ _ _)) ?_ hwaits
  intro h stage call later next hc _ hnext hh
  exact (hh (Stage.isWaiting_of_call hc)).next hp hc hnext

/-! ## Dropped in a wait -/

/-- A call stores one record of the command's room at most. -/
theorem serve_shelves (hp : p.Shelves records) {d : Desk} {stage : Stage} {call : Call}
    (hc : stage.call? d r = some call) (w : W) :
    ∃ more : List (List UInt8), more.length ≤ 1 ∧
      records (p.serve w call).1 = shelve (records w) r.room more := by
  cases call with
  | appendRecord room record =>
    obtain ⟨rfl, -, -⟩ := Stage.write_of_call hc
    cases hwritten : (p.appendRecord r.room record w).2 with
    | ok stored => exact ⟨[record], Nat.le_refl _, hp.written w r.room record hwritten⟩
    | error e =>
      refine ⟨[], Nat.zero_le _, ?_⟩
      rw [shelve_nil]
      exact hp.unwritten w r.room record e hwritten
  | _ =>
    refine ⟨[], Nat.zero_le _, ?_⟩
    rw [shelve_nil]
    exact Ports.serve_read (hp.read w) rfl

/-- **What is left behind in a wait**, whether the call that was waited for is
still carried out or not. -/
theorem Unrecorded.drop (hp : p.Shelves records) {h : Hall W} {stage : Stage} {call : Call} {w : W}
    (hh : Unrecorded records h₀ h stage) (hc : stage.call? h.desk r = some call)
    (hw : w = h.world ∨ w = (p.serve h.world call).1) (instant : Nat) :
    Abandoned records h₀ (Hall.drop { h with world := w } instant stage) r stage := by
  obtain ⟨hcache, hsessions, hmetrics, hstored⟩ := hh
  have hmore : ∃ more : List (List UInt8), more.length ≤ 1 ∧
      records w = shelve (records h₀.world) r.room more := by
    rcases hw with rfl | rfl
    · exact ⟨[], Nat.zero_le _, by rw [shelve_nil, hstored]⟩
    · rw [← hstored]
      exact serve_shelves hp hc h.world
  cases stage with
  | lookup agent task => exact ⟨hcache, hsessions, hmore, nofun, fun _ => hmetrics⟩
  | loading agent task key load => exact ⟨hcache, hsessions, hmore, nofun, fun _ => hmetrics⟩
  | asking agent task key context since run =>
    -- the pipeline that was being asked is timed up to the drop
    exact ⟨hcache, hsessions, hmore, fun _ => hmetrics.finish _ false, nofun⟩
  | saving text save => exact ⟨hcache, hsessions, hmore, fun _ => hmetrics, nofun⟩
  | finished reply => cases hc
  | broken => cases hc

/-! ## Not dropped -/

/-- **The turn of a command is recorded** by its last step, behind the last call
of a save: nothing was recorded before, and this step writes the session and the
cache, both of them and nothing else. -/
inductive Recorded (p : Ports W) (records : W → String → List (List UInt8)) (h₀ : Hall W)
    (r : Request) : Hall W → Stage → Prop
  | saved {h : Hall W} {text : String} {save : Saving} {call : Call} {later : Nat} {desk : Desk} :
      Underway p h₀ r h (.saving text save) → Unrecorded records h₀ h (.saving text save) →
      (Stage.saving text save).call? h.desk r = some call →
      h.desk.Recorded desk later r text →
      Recorded p records h₀ r ⟨desk, (p.serve h.world call).1, later⟩
        (.finished ⟨text, .pipeline⟩)

/-- A hall in which the turn of a command is not recorded: its cache has no
entry more, its sessions have no value more, and the pipeline's text is not
given. -/
def NoTurn (h₀ h : Hall W) (stage : Stage) : Prop :=
  h.desk.cache.Within h₀.desk.cache ∧ h.desk.sessions.Unwritten h₀.desk.sessions ∧
    ∀ text, stage ≠ .finished ⟨text, .pipeline⟩

theorem Unrecorded.noTurn {h : Hall W} {stage : Stage} (hh : Unrecorded records h₀ h stage)
    (hwaits : stage.isWaiting = true) : NoTurn h₀ h stage := by
  refine ⟨hh.cache, hh.sessions, ?_⟩
  rintro text rfl
  cases hwaits

/-- A refusal is no answer of the pipeline. -/
theorem refused_ne_answered (refusal : Refusal) (text : String) :
    Stage.refused refusal ≠ .finished ⟨text, .pipeline⟩ := by
  cases refusal <;> simp [Stage.refused, Refusal.reply, Refusal.source]

/-- The first step records no turn. -/
theorem noTurn_begun {next : Desk × Stage} (hnext : Stage.Begun h₀.desk h₀.now r next) :
    NoTurn h₀ ⟨next.1, h₀.world, h₀.now⟩ next.2 := by
  have hdropped := h₀.desk.cache.dropExpired_within h₀.now (Desk.cacheKey r)
  cases hnext with
  | overflow => exact ⟨.refl _, .refl _, fun _ => by simp⟩
  | limited => exact ⟨.refl _, .refl _, refused_ne_answered _⟩
  | cached => exact ⟨.refl _, .refl _, fun _ => by simp⟩
  | unknown => exact ⟨hdropped, .refl _, refused_ne_answered _⟩
  | letIn => exact ⟨hdropped, .refl _, fun _ => by simp⟩

/-- **A command records its turn in its last step or not at all.** -/
theorem Underway.noTurn_or_recorded (hp : p.Shelves records) {h : Hall W} {stage : Stage}
    (hunder : Underway p h₀ r h stage) :
    NoTurn h₀ h stage ∨ Recorded p records h₀ r h stage := by
  cases hunder with
  | begun => exact .inl (noTurn_begun (Stage.start_begun _ _ _))
  | @answered h' stage' call later hbefore hc _ next hresume =>
    have hwaited := hbefore.unrecorded hp (Stage.isWaiting_of_call hc)
    have hnext := Stage.resume_next p h'.desk (p.serve h'.world call).1 later r stage'
      (p.serve h'.world call).2.2
    rw [← hresume] at hnext
    cases hwaits : next.2.2.isWaiting with
    | true => exact .inl ((hwaited.next hp hc hnext hwaits).noTurn hwaits)
    | false =>
      -- of the steps that end a command, one alone comes behind a save
      have hexpected := Stage.expects_of_call hc p h'.world
      clear hresume
      obtain ⟨hcache, hsessions, -, -⟩ := id hwaited
      generalize (p.serve h'.world call).2.2 = answer at hnext hexpected
      cases hnext with
      | registryFailed =>
        exact .inl ⟨hcache, hsessions, refused_ne_answered _⟩
      | unregistered =>
        exact .inl ⟨hcache, hsessions, refused_ne_answered _⟩
      | failed =>
        exact .inl ⟨hcache, hsessions, refused_ne_answered _⟩
      | saved =>
        exact .inr (.saved hbefore hwaited hc (Desk.recorded_recordTurn h'.desk later r _))
      | stray hstray =>
        rw [hstray] at hexpected
        cases hexpected
      | entered => cases hwaits
      | condensing => cases hwaits
      | read => cases hwaits
      | condensed => cases hwaits
      | unanswered => cases hwaits
      | answered => cases hwaits
      | rested => cases hwaits
      | unwritten => cases hwaits
      | reconnected => cases hwaits

/-- **No reply is half recorded.** Wherever a command has come: if it is dropped
in the wait it is in, before the call is carried out or after it, at any
instant, then no entry of the cache and no value of a session is left of it, at
most one record, and one request and one response time if it had entered the
pipeline; and if it is not, its turn is recorded in the step behind its save, or
not at all. -/
theorem recorded_or_abandoned (hp : p.Shelves records) {h : Hall W} {stage : Stage}
    (hunder : Underway p h₀ r h stage) :
    (∀ call w instant, stage.call? h.desk r = some call →
      w = h.world ∨ w = (p.serve h.world call).1 →
      Abandoned records h₀ (drop { h with world := w } instant stage) r stage) ∧
    (NoTurn h₀ h stage ∨ Recorded p records h₀ r h stage) := by
  refine ⟨fun call w instant hc hw => ?_, hunder.noTurn_or_recorded hp⟩
  exact (hunder.unrecorded hp (Stage.isWaiting_of_call hc)).drop hp hc hw instant

/-- A command that its deadline drops while the pipeline is asked has been counted and
timed. The cache has no entry and no session a value, and nothing is stored. -/
theorem abandoned_at_deadline :
    let h := Hall.small { Rehearsal.twoRooms with script := [⟨.ok (.answer "late"), 50⟩] }
    let out := h.command (Rehearsal.ports false) (.poem "lobby" "rain") (some 5)
    out.2 = .dropped ∧ (∀ key, out.1.desk.cache.entries.get? key = none) ∧
      (∀ who session, out.1.desk.sessions.sessions.get? who = some session →
        session.context = []) ∧
      out.1.desk.metrics.requests = 1 ∧ out.1.desk.metrics.errors = 0 ∧
      out.1.desk.metrics.times.length = 1 ∧ out.1.world.recordsOf "lobby" = [] := by
  intro h out
  have hdropped : out.2 = .dropped := by decide +kernel
  have hcounted : out.1.desk.metrics.requests = 1 := by decide +kernel
  have hends : Ending (Rehearsal.ports false) h (.poem "lobby" "rain") out := command_ends _ _ _ _
  obtain ⟨h', stage, call, instant, hunder, hc, hout⟩ := hends.of_dropped hdropped
  obtain ⟨hcut, -⟩ := recorded_or_abandoned (Rehearsal.shelves false) hunder
  have hleft := hcut call _ instant hc (.inr rfl)
  rw [← hout] at hleft
  have hmeasured : h.desk.metrics.Measured out.1.desk.metrics 0 := by
    cases hentered : stage.hasEntered with
    | true => exact hleft.entered hentered
    | false =>
      rw [hleft.outside hentered] at hcounted
      exact absurd hcounted (by decide)
  obtain ⟨ms, htimes⟩ := hmeasured.times
  refine ⟨hdropped, fun key => ?_, fun who session hget => ?_, hmeasured.requests,
    hmeasured.errors, by rw [htimes]; rfl, by decide +kernel⟩
  · cases hget : out.1.desk.cache.entries.get? key with
    | none => rfl
    | some e => exact nomatch hleft.cache.held key e hget
  · rcases hleft.sessions who session hget with hempty | ⟨old, hold, -, -⟩
    · exact hempty
    · exact nomatch hold

end Hall

end Colloquy
