import Colloquy.Database.Records
import Colloquy.Proofs.Dispatch.Parts
import Colloquy.Proofs.RateLimiter
import Colloquy.Proofs.RateLimiter.Windows
import Colloquy.Proofs.Session
import Mathlib.Algebra.Group.Nat.Defs
/-!
# What a command computes with

A command counts in whole numbers of 32 and 64 bits and reckons with instants.
`Desk.Tally` bounds what the desk counts by the number of commands, and says
that nothing it holds is of an instant to come; each step keeps it
(`Stage.Next.tally`). So whatever the settings, all that a command computes
fits (`Fits`), but for one sum: the instant at which a rate window would close
may not be representable, and then the command breaks off without a reply
(`broken_iff`).
-/

namespace Colloquy

/-- Settings whose numbers are in the ranges of their types. -/
structure Settings.InRange (s : Settings) : Prop where
  cacheSize : s.cache.maxSize < 2 ^ 64
  cacheTtl : s.cache.ttlSeconds < 2 ^ 64
  sessionTimeout : s.session.timeoutSeconds < 2 ^ 64
  rateWindow : s.rateLimit.windowSeconds < 2 ^ 64
  rateRequests : s.rateLimit.maxRequests < 2 ^ 32
  attempts : s.retry.maxAttempts < 2 ^ 32
  delay : s.retry.delaySeconds < 2 ^ 64
  threshold : s.memory.tokenThreshold < 2 ^ 32
  records : s.memory.maxRecords < 2 ^ 32
  truncate : s.memory.truncateChars < 2 ^ 64
  recent : s.memory.recentRecords < 2 ^ 64

/-! ## Sessions -/

namespace SessionStore

/-- The sessions of a store were seen by now, and none counts more turns than a
number. -/
def Counted (s : SessionStore) (now turns : Nat) : Prop :=
  ∀ who session, s.sessions.get? who = some session →
    session.lastSeen ≤ now ∧ count "turns" session.context ≤ turns

variable {s : SessionStore} {now turns : Nat}

theorem Counted.mono (hs : s.Counted now turns) {later more : Nat} (hnow : now ≤ later)
    (hturns : turns ≤ more) : s.Counted later more := by
  intro who session hsession
  obtain ⟨hseen, hcount⟩ := hs who session hsession
  exact ⟨by omega, by omega⟩

/-- A session that is due counts no more than a stored one. -/
theorem Counted.due (hs : s.Counted now turns) (later : Nat) (who : String × String) :
    count "turns" (s.due later who).context ≤ turns := by
  rcases s.due_context later who with hempty | ⟨session, hsession, hcontext⟩
  · rw [hempty]
    exact Nat.zero_le _
  · rw [hcontext]
    exact (hs who session hsession).2

/-- A visit that counts at most one turn leaves at most one more. -/
theorem Counted.visit {α : Type} (hs : s.Counted now turns) (user room : String) {more : Nat}
    (hmore : turns ≤ more) (change : Session → α × Context)
    (hchange : ∀ session, count "turns" session.context ≤ turns →
      count "turns" (change session).2 ≤ more) :
    (s.visit now user room change).2.Counted now more := by
  intro who session hsession
  rw [get?_visit] at hsession
  split at hsession
  · cases hsession
    exact ⟨Nat.le_of_eq (s.due_lastSeen now _), hchange _ (hs.due now _)⟩
  · exact hs.mono (Nat.le_refl _) hmore who session hsession

theorem Counted.getOrCreate (hs : s.Counted now turns) (user room : String) :
    (s.getOrCreate now user room).2.Counted now turns :=
  hs.visit user room (Nat.le_refl _) _ fun _ hcount => hcount

end SessionStore

/-! ## The desk -/

/-- What a desk holds at an instant: counts under bounds, entries and sessions of
no later instant, and windows that have room for what they admitted and close
at instants. -/
structure Desk.Tally (d : Desk) (now requests errors turns : Nat) : Prop where
  requests : d.metrics.requests ≤ requests
  errors : d.metrics.errors ≤ errors
  sessions : d.sessions.Counted now turns
  kept : ∀ key e, d.cache.entries.get? key = some e → e.createdAt ≤ now
  capped : d.limiter.Capped
  bounded : d.limiter.Bounded

/-- Two desks under one policy of retries, one limit of records and one of
requests. -/
structure Desk.SameRules (d d' : Desk) : Prop where
  retry : d'.retry = d.retry
  memory : d'.memory = d.memory
  limit : d'.limiter.maxRequests = d.limiter.maxRequests

namespace Desk

variable {d : Desk} {now requests errors turns : Nat} {r : Request}

theorem SameRules.trans {d d' d'' : Desk} (h : SameRules d d') (h' : SameRules d' d'') :
    SameRules d d'' :=
  ⟨h'.retry.trans h.retry, h'.memory.trans h.memory, h'.limit.trans h.limit⟩

theorem Tally.mono (hd : d.Tally now requests errors turns) {later requests' errors' turns' : Nat}
    (hnow : now ≤ later) (hrequests : requests ≤ requests') (herrors : errors ≤ errors')
    (hturns : turns ≤ turns') : d.Tally later requests' errors' turns' where
  requests := Nat.le_trans hd.requests hrequests
  errors := Nat.le_trans hd.errors herrors
  sessions := hd.sessions.mono hnow hturns
  kept key e he := Nat.le_trans (hd.kept key e he) hnow
  capped := hd.capped
  bounded := hd.bounded

/-- The checks at the front keep the tally. -/
theorem Tally.begun (hd : d.Tally now requests errors turns) {next : Desk × Stage}
    (hnext : Stage.Begun d now r next) : next.1.Tally now requests errors turns := by
  obtain ⟨hsessions, hmetrics⟩ := hnext.shared
  have hlimiter : next.1.limiter = (d.limiter.allow now r.user).2 := by cases hnext <;> rfl
  have hcache := hnext.cache
  refine ⟨?_, ?_, ?_, fun key e he => hd.kept key e (hcache.held key e he), ?_, ?_⟩
  · rw [hmetrics]; exact hd.requests
  · rw [hmetrics]; exact hd.errors
  · rw [hsessions]; exact hd.sessions
  · rw [hlimiter]; exact hd.capped.allow now r.user
  · rw [hlimiter]; exact hd.bounded.allow now r.user

/-- The context of a session behind a turn. -/
def turned (r : Request) (context : Context) : Context :=
  Named.insert "last_task" (.text r.command.task)
    (Named.insert "last_agent" (.text r.command.agent) (SessionStore.countUp "turns" context))

/-- The context of a turn counts one turn more at most. -/
theorem count_turned_le (r : Request) (context : Context) :
    SessionStore.count "turns" (turned r context) ≤ SessionStore.count "turns" context + 1 := by
  rw [turned, (turned_insert r.command context).count]
  exact Nat.mod_le _ _

/-- A turn that is recorded is one more at most. -/
theorem Tally.recordTurn (hd : d.Tally now requests errors turns) (text : String) :
    (d.recordTurn now r text).Tally now requests errors (turns + 1) := by
  have hsessions := hd.sessions.visit r.user r.room (Nat.le_succ turns)
    (fun session => ((), turned r session.context))
    fun session hcount => Nat.le_trans (count_turned_le r session.context) (by omega)
  refine ⟨hd.requests, hd.errors, hsessions, fun key e he => ?_, hd.capped, hd.bounded⟩
  rcases ResponseCache.createdAt_of_get?_set he with hnow | hold
  · exact Nat.le_of_eq hnow
  · exact hd.kept key e hold

end Desk

/-! ## One step -/

namespace Stage

theorem answers_le_one (stage : Stage) : stage.answers ≤ 1 := by
  unfold answers
  split
  · split <;> omega
  · omega

theorem failures_le_one (stage : Stage) : stage.failures ≤ 1 := by
  unfold failures
  split
  · split <;> omega
  · omega

/-- No reply is both an answer and a failure. -/
theorem entries_le_one (stage : Stage) : stage.entries ≤ 1 := by
  cases stage with
  | finished reply =>
    have hanswers := answers_le_one (.finished reply)
    have hfailures := failures_le_one (.finished reply)
    change (Stage.finished reply).answers + (Stage.finished reply).failures ≤ 1
    by_cases hsource : reply.source = .pipeline
    · have hnone : (Stage.finished reply).failures = 0 := by
        simp [failures, Reply.isPipelineFailure, hsource]
      omega
    · have hnone : (Stage.finished reply).answers = 0 := if_neg hsource
      omega
  | lookup agent task => exact Nat.zero_le _
  | loading agent task key load => exact Nat.zero_le _
  | asking agent task key context since run => exact Nat.le_refl _
  | saving text save => exact Nat.le_refl _
  | broken => exact Nat.zero_le _

/-- Since when the pipeline is asked, and how many attempts are behind the
command. -/
def pace? : Stage → Option (Nat × Nat)
  | .asking _ _ _ _ since (.attempting made) => some (since, made)
  | .asking _ _ _ _ since (.pausing made) => some (since, made)
  | _ => none

/-- The pipeline has been asked since an instant that has come, and there is an
attempt left. -/
def Paced (stage : Stage) (now attempts : Nat) : Prop :=
  ∀ since made, stage.pace? = some (since, made) → since ≤ now ∧ made + 1 ≤ attempts

/-- A command that comes changes no rules and has not asked the pipeline. -/
theorem Begun.rules {d : Desk} {now : Nat} {r : Request} {next : Desk × Stage}
    (h : Begun d now r next) : Desk.SameRules d next.1 ∧ next.2.pace? = none := by
  have hlimit := (RateLimiter.allow_rules (l := d.limiter) now r.user).2
  cases h <;> exact ⟨⟨rfl, rfl, hlimit⟩, rfl⟩

variable {W : Type} {p : Ports W} {d : Desk} {w : W} {now : Nat} {r : Request} {stage : Stage}
  {answer : Answer} {next : Desk × W × Stage}

/-- **What a step does to the desk** but for the metrics: nothing, or it opens the
session of the pair, or it records the turn. -/
theorem Next.desk (h : Next p d w now r stage answer next) :
    next.1.limiter = d.limiter ∧
      (next.1.cache = d.cache ∧
          (next.1.sessions = d.sessions ∨
            next.1.sessions = (d.sessions.getOrCreate now r.user r.room).2) ∧
          stage.answers ≤ next.2.2.answers ∨
        ∃ text, next.1 = d.recordTurn now r text ∧ next.2.2 = .finished ⟨text, .pipeline⟩ ∧
          stage.answers = 0) := by
  cases h with
  | saved => exact ⟨rfl, .inr ⟨_, rfl, rfl, rfl⟩⟩
  | entered => exact ⟨rfl, .inl ⟨rfl, .inr rfl, Nat.le_refl _⟩⟩
  | stray => exact ⟨rfl, .inl ⟨rfl, .inl rfl, Nat.le_refl _⟩⟩
  | registryFailed => exact ⟨rfl, .inl ⟨rfl, .inl rfl, Nat.zero_le _⟩⟩
  | unregistered => exact ⟨rfl, .inl ⟨rfl, .inl rfl, Nat.zero_le _⟩⟩
  | condensing => exact ⟨rfl, .inl ⟨rfl, .inl rfl, Nat.zero_le _⟩⟩
  | read => exact ⟨rfl, .inl ⟨rfl, .inl rfl, Nat.zero_le _⟩⟩
  | condensed => exact ⟨rfl, .inl ⟨rfl, .inl rfl, Nat.zero_le _⟩⟩
  | unanswered => exact ⟨rfl, .inl ⟨rfl, .inl rfl, Nat.zero_le _⟩⟩
  | failed => exact ⟨rfl, .inl ⟨rfl, .inl rfl, Nat.zero_le _⟩⟩
  | answered => exact ⟨rfl, .inl ⟨rfl, .inl rfl, Nat.zero_le _⟩⟩
  | rested => exact ⟨rfl, .inl ⟨rfl, .inl rfl, Nat.zero_le _⟩⟩
  | unwritten => exact ⟨rfl, .inl ⟨rfl, .inl rfl, Nat.zero_le _⟩⟩
  | reconnected => exact ⟨rfl, .inl ⟨rfl, .inl rfl, Nat.zero_le _⟩⟩

/-- **A step keeps the tally**: what it counts is the part of its command. -/
theorem Next.tally (h : Next p d w now r stage answer next) {n : Nat}
    (hd : d.Tally now (n + stage.entries) (n + stage.failures) (n + stage.answers)) :
    next.1.Tally now (n + next.2.2.entries) (n + next.2.2.failures) (n + next.2.2.answers) := by
  have hrequests := h.requests
  have herrors := h.errors
  have hbefore := hd.requests
  have hbefore' := hd.errors
  have hr : next.1.metrics.requests ≤ n + next.2.2.entries := by omega
  have he : next.1.metrics.errors ≤ n + next.2.2.failures := by omega
  obtain ⟨hlimiter, ⟨hcache, hsessions, hanswers⟩ | ⟨text, hturn, hreply, hanswers⟩⟩ := h.desk
  · have hcounted : next.1.sessions.Counted now (n + stage.answers) := by
      rcases hsessions with hsame | hopened
      · rw [hsame]; exact hd.sessions
      · rw [hopened]; exact hd.sessions.getOrCreate r.user r.room
    refine ⟨hr, he, hcounted.mono (Nat.le_refl _) (by omega), ?_, ?_, ?_⟩
    · rw [hcache]; exact hd.kept
    · rw [hlimiter]; exact hd.capped
    · rw [hlimiter]; exact hd.bounded
  · have hrecorded := hd.recordTurn (r := r) text
    rw [← hturn] at hrecorded
    have hone : n + stage.answers + 1 = n + next.2.2.answers := by rw [hreply, hanswers]; rfl
    rw [hone] at hrecorded
    exact ⟨hr, he, hrecorded.sessions, hrecorded.kept, hrecorded.capped, hrecorded.bounded⟩

/-- A step changes no rules. -/
theorem Next.rules (h : Next p d w now r stage answer next) : Desk.SameRules d next.1 := by
  cases h <;> exact ⟨rfl, rfl, rfl⟩

/-- **A step keeps the pace**: a pause is followed by an attempt that is left. -/
theorem Next.paced (h : Next p d w now r stage answer next)
    (hs : stage.Paced now d.retry.attempts) : next.2.2.Paced now d.retry.attempts := by
  have hidle : ∀ stage : Stage, stage.pace? = none → stage.Paced now d.retry.attempts := by
    intro stage hnone since made hsome
    rw [hnone] at hsome
    cases hsome
  have hfirst := d.retry.attempts_pos
  cases h with
  | read => exact fun _ _ hpace => by cases hpace; exact ⟨Nat.le_refl _, hfirst⟩
  | condensed => exact fun _ _ hpace => by cases hpace; exact ⟨Nat.le_refl _, hfirst⟩
  | unanswered hmore => exact fun _ _ hpace => by cases hpace; exact ⟨(hs _ _ rfl).1, hmore⟩
  | rested => exact fun _ _ hpace => by cases hpace; exact hs _ _ rfl
  | stray => exact hs
  | registryFailed => exact hidle _ rfl
  | unregistered => exact hidle _ rfl
  | entered => exact hidle _ rfl
  | condensing => exact hidle _ rfl
  | failed => exact hidle _ rfl
  | answered => exact hidle _ rfl
  | unwritten => exact hidle _ rfl
  | reconnected => exact hidle _ rfl
  | saved => exact hidle _ rfl

end Stage

namespace Hall

variable {W : Type} {p : Ports W} {s : Settings} {catalog : Catalog} {h : Hall W} {r : Request}

/-! ## A command -/

/-- What holds where a command comes that `n` commands came before. -/
structure Tallied (n : Nat) (h : Hall W) (stage : Stage) : Prop where
  tally : h.desk.Tally h.now (n + stage.entries) (n + stage.failures) (n + stage.answers)
  paced : stage.Paced h.now h.desk.retry.attempts

/-- **Wherever a command comes it is tallied**, and the rules are those it came
under. -/
theorem Underway.tallied {n : Nat} (hd : h.desk.Tally h.now n n n) {h' : Hall W} {stage : Stage}
    (hunder : Underway p h r h' stage) : Desk.SameRules h.desk h'.desk ∧ Tallied n h' stage := by
  refine hunder.keeps
    (J := fun h' stage => Desk.SameRules h.desk h'.desk ∧ Tallied n h' stage) ?_ ?_
  · have hbegun := Stage.start_begun h.desk h.now r
    have hblank := hbegun.isBlank
    obtain ⟨hrules, hpace⟩ := hbegun.rules
    refine ⟨hrules, ?_, fun since made hsome => ?_⟩
    · rw [hblank.entries, hblank.failures, hblank.answers]
      exact hd.begun hbegun
    · rw [hpace] at hsome
      cases hsome
  · rintro h' stage call later next hc hlater hnext ⟨hrules, htally, hpaced⟩
    have hlate : stage.Paced later h'.desk.retry.attempts := fun since made hpace =>
      ⟨Nat.le_trans (hpaced since made hpace).1 hlater, (hpaced since made hpace).2⟩
    have htally' := hnext.tally (htally.mono hlater (Nat.le_refl _) (Nat.le_refl _) (Nat.le_refl _))
    have hpaced' := hnext.paced hlate
    rw [← hnext.rules.retry] at hpaced'
    exact ⟨hrules.trans hnext.rules, htally', hpaced'⟩

/-- Without a timeout no command is dropped, and none breaks off but at the
limiter. -/
theorem outcome_of_command (p : Ports W) (h : Hall W) (r : Request) :
    (h.desk.limiter.allow h.now r.user).1 = .overflow ∧ (h.command p r none).2 = .broken ∨
      (h.desk.limiter.allow h.now r.user).1 ≠ .overflow ∧
        ∃ reply, (h.command p r none).2 = .replied reply := by
  have hc := command_course_none p h r
  generalize h.command p r none = out at hc ⊢
  have hallowed : (h.desk.limiter.allow h.now r.user).1 = .allowed →
      (h.desk.limiter.allow h.now r.user).1 ≠ .overflow := fun hv => by rw [hv]; decide
  cases hc with
  | overflow hv => exact .inl ⟨hv, rfl⟩
  | limited hv => exact .inr ⟨by rw [hv]; decide, _, rfl⟩
  | cached hv => exact .inr ⟨hallowed hv, _, rfl⟩
  | unknown hv => exact .inr ⟨hallowed hv, _, rfl⟩
  | registryFailed hin => exact .inr ⟨hallowed hin.allowed, _, rfl⟩
  | unregistered hin => exact .inr ⟨hallowed hin.allowed, _, rfl⟩
  | failed hin => exact .inr ⟨hallowed hin.allowed, _, rfl⟩
  | answered hin => exact .inr ⟨hallowed hin.allowed, _, rfl⟩

/-- **A command leaves one more counted** of each at most. -/
theorem tally_command {n : Nat} (hd : h.desk.Tally h.now n n n) (r : Request) :
    (h.command p r none).1.desk.Tally (h.command p r none).1.now (n + 1) (n + 1) (n + 1) := by
  have hbehind : ∀ {h' : Hall W} {stage : Stage}, Underway p h r h' stage →
      h'.desk.Tally h'.now (n + 1) (n + 1) (n + 1) := by
    intro h' stage hunder
    obtain ⟨-, htally, -⟩ := hunder.tallied hd
    have hentries := stage.entries_le_one
    have hfailures := stage.failures_le_one
    have hanswers := stage.answers_le_one
    exact htally.mono (Nat.le_refl _) (by omega) (by omega) (by omega)
  have hout := outcome_of_command p h r
  have hend := command_ends p h r none
  generalize h.command p r none = out at hend hout ⊢
  cases hend with
  | replied hunder => exact hbehind hunder
  | broken hunder => exact hbehind hunder
  | dropped => rcases hout with ⟨-, hbroken⟩ | ⟨-, reply, hreply⟩ <;> contradiction

/-! ## A run -/

/-- The number of commands among some acts. -/
def commandCount (acts : List Act) : Nat :=
  acts.countP fun
    | .command _ => true
    | _ => false

/-- **A run counts its commands at most**, and keeps the limiter's rules. -/
theorem tally_play (p : Ports W) (s : Settings) (catalog : Catalog) (w : W) (now : Nat)
    (acts : List Act) :
    let played := (play p ⟨.ofSettings s catalog, w, now⟩ acts).1
    played.desk.Tally played.now (commandCount acts) (commandCount acts) (commandCount acts) ∧
      played.desk.limiter.window = s.rateWindow ∧
      played.desk.limiter.maxRequests = s.rateLimit.maxRequests := by
  induction acts using List.reverseRecOn with
  | nil =>
    refine ⟨⟨Nat.le_refl _, Nat.le_refl _, fun _ _ hsession => ?_, fun _ _ he => ?_,
      RateLimiter.empty_capped _ _, RateLimiter.empty_bounded _ _⟩, rfl, rfl⟩
    · cases hsession
    · cases he
  | append_singleton acts a ih =>
    obtain ⟨htally, hwindow, hmax⟩ := ih
    rw [play_concat]
    have hcount : commandCount (acts ++ [a]) = commandCount acts + commandCount [a] :=
      List.countP_append
    cases a with
    | command r =>
      rw [hcount]
      have hlimiter := (command_course_none p (play p ⟨.ofSettings s catalog, w, now⟩ acts).1 r).limiter
      obtain ⟨hwindow', hmax'⟩ := RateLimiter.allow_rules
        (l := (play p ⟨.ofSettings s catalog, w, now⟩ acts).1.desk.limiter)
        (play p ⟨.ofSettings s catalog, w, now⟩ acts).1.now r.user
      refine ⟨tally_command htally r, ?_, ?_⟩
      · simp only [logged, perform, hlimiter, hwindow', hwindow]
      · simp only [logged, perform, hlimiter, hmax', hmax]
    | forget room =>
      rw [hcount]
      exact ⟨htally, hwindow, hmax⟩
    | wait ms =>
      rw [hcount]
      refine ⟨htally.mono (Nat.le_add_right _ ms) ?_ ?_ ?_, hwindow, hmax⟩
      · exact Nat.le_refl _
      · exact Nat.le_refl _
      · exact Nat.le_refl _

/-- **What a command computes with fits its type**, wherever the command comes.
Where it has still to count something there is room for one more. -/
structure Fits (h : Hall W) (stage : Stage) : Prop where
  /-- Windows count in 32 bits, and close at instants. -/
  windows : ∀ e ∈ h.desk.limiter.windows.entries,
    e.2.count < 2 ^ 32 ∧ e.2.resetAt < Clock.horizon
  /-- No entry of the cache is younger than the present. -/
  ages : ∀ key e, h.desk.cache.entries.get? key = some e → e.createdAt ≤ h.now
  /-- No session was last seen behind the present. -/
  idle : ∀ who session, h.desk.sessions.sessions.get? who = some session →
    session.lastSeen ≤ h.now
  /-- While a turn may still be counted, the turns of every session have room for one
  more in 64 bits. -/
  turns : stage.answers = 0 → ∀ who session, h.desk.sessions.sessions.get? who = some session →
    SessionStore.count "turns" session.context + 1 < 2 ^ 64
  /-- Requests and errors have room for one more in 64 bits, each while it may still be
  counted. -/
  requests : stage.entries = 0 → h.desk.metrics.requests + 1 < 2 ^ 64
  errors : stage.failures = 0 → h.desk.metrics.errors + 1 < 2 ^ 64
  /-- Attempts are counted in 32 bits, and have taken some time. -/
  attempts : ∀ since made, stage.pace? = some (since, made) →
    since ≤ h.now ∧ made + 1 < 2 ^ 32
  /-- The limit of records is one of the store. -/
  records : Database.rowBound h.desk.memory.maxRecords = some h.desk.memory.maxRecords

/-- **A command breaks off only where a window cannot close.** Take settings in
range, a run of fewer than 2⁶⁴ commands over whatever ports, and one command of
it, from any instant on. If its user has no open window and there is no instant
a window's length from then, the command ends without a reply. Otherwise it ends
in one. All else that it computes fits. -/
theorem broken_iff {s : Settings} (hs : s.InRange) (p : Ports W) (catalog : Catalog) (w : W)
    (now : Nat) {acts : List Act} (hacts : commandCount acts + 1 < 2 ^ 64) (r : Request) :
    let h := (play p ⟨.ofSettings s catalog, w, now⟩ acts).1
    ((h.command p r none).2 = .broken ↔
        (h.desk.limiter.purge h.now).windows.get? r.user = none ∧
          Clock.horizon ≤ h.now + s.rateWindow) ∧
      ((h.command p r none).2 ≠ .broken → ∃ reply, (h.command p r none).2 = .replied reply) ∧
      ∀ h' stage, Underway p h r h' stage → Fits h' stage := by
  intro h
  obtain ⟨htally, hwindow, hlimit⟩ := tally_play p s catalog w now acts
  have hreached : Reachable p s catalog h := (Reachable.start w now).play acts
  obtain ⟨-, hmemory, hretry⟩ := hreached.rules
  have hover : (h.desk.limiter.allow h.now r.user).1 = .overflow ↔
      (h.desk.limiter.purge h.now).windows.get? r.user = none ∧
        Clock.horizon ≤ h.now + s.rateWindow := by
    rw [← hwindow]
    exact RateLimiter.allow_eq_overflow_iff
  refine ⟨?_, ?_, fun h' stage hunder => ?_⟩
  · rw [← hover]
    rcases outcome_of_command p h r with ⟨hv, hbroken⟩ | ⟨hv, reply, hreply⟩
    · exact iff_of_true hbroken hv
    · exact iff_of_false (by rw [hreply]; exact Outcome.noConfusion) hv
  · intro hnot
    rcases outcome_of_command p h r with ⟨-, hbroken⟩ | ⟨-, hreply⟩
    · exact absurd hbroken hnot
    · exact hreply
  · obtain ⟨hrules, hcounted, hpaced⟩ := hunder.tallied htally
    have hrequests := hcounted.requests
    have herrors := hcounted.errors
    have hattempts : h'.desk.retry.attempts < 2 ^ 32 := by
      have hmost := hs.attempts
      rw [hrules.retry, hretry]
      simp only [RetryPolicy.ofSettings, RetryPolicy.ofAttempts]
      omega
    refine ⟨fun e he => ⟨?_, hcounted.bounded e he⟩, hcounted.kept, fun who session hsession =>
      (hcounted.sessions who session hsession).1, fun hpart who session hsession => ?_,
      fun hpart => by omega, fun hpart => by omega, fun since made hpace => ?_, ?_⟩
    · have hcap := hcounted.capped e he
      rw [hrules.limit.trans hlimit] at hcap
      exact Nat.lt_of_le_of_lt hcap hs.rateRequests
    · have hcount := (hcounted.sessions who session hsession).2
      omega
    · obtain ⟨hsince, hmade⟩ := hpaced since made hpace
      exact ⟨hsince, by omega⟩
    · have hrecords := hs.records
      rw [hrules.memory, hmemory, Database.rowBound, if_pos]
      exact Nat.lt_trans hrecords (by decide)

end Hall

/-! ## Settings at the upper ends of their ranges -/

/-- The largest numbers that settings can hold. -/
def Settings.extreme : Settings where
  cache := ⟨2 ^ 64 - 1, 2 ^ 64 - 1⟩
  session := ⟨2 ^ 64 - 1⟩
  rateLimit := ⟨2 ^ 64 - 1, 2 ^ 32 - 1⟩
  retry := ⟨2 ^ 32 - 1, 2 ^ 64 - 1⟩
  memory := ⟨2 ^ 32 - 1, 2 ^ 32 - 1, 2 ^ 64 - 1, 2 ^ 64 - 1⟩

namespace Hall

/-- Under them the first command breaks off. -/
theorem broken_at_extreme :
    Settings.extreme.InRange ∧
      ((⟨.ofSettings .extreme .small, .twoRooms, 0⟩ : Hall Rehearsal).command
        (Rehearsal.ports false) (.poem "lobby" "rain") none).2 = .broken := by
  refine ⟨?_, by decide +kernel⟩
  constructor <;> decide

/-- With a window of a minute a command ends in a reply, by the law. -/
theorem replied_within_minute :
    ∃ reply, ((play (Rehearsal.ports false)
        ⟨.ofSettings { Settings.extreme with rateLimit := {} } .small, .twoRooms, 0⟩
        [.command (.poem "lobby" "rain")]).1.command (Rehearsal.ports false)
          (.poem "lobby" "snow") none).2 = .replied reply := by
  have hrange : Settings.InRange { Settings.extreme with rateLimit := {} } := by
    constructor <;> decide
  have hcount : commandCount [.command (.poem "lobby" "rain")] + 1 < 2 ^ 64 := by decide
  obtain ⟨hbroken, hreplied, -⟩ := broken_iff hrange (Rehearsal.ports false) .small .twoRooms 0
    hcount (.poem "lobby" "snow")
  refine hreplied fun hnot => ?_
  have hclosed := (hbroken.1 hnot).2
  revert hclosed
  decide +kernel

end Hall

end Colloquy
