import Colloquy.Proofs.Dispatch.Floor
import Colloquy.Proofs.Dispatch.Recall
import Colloquy.Proofs.Named
import Colloquy.Proofs.Text.Prefix
/-!
# The parts of a command

Commands share the sessions, the store and the metrics. The part that a command
has in each of them is told by its stage: the turn it was answered with, the
exchange it has stored, the entry and the failure it was counted with. A step
changes what is shared by what it changes of these parts (`Stage.Next.turns`,
`stored`, `requests`, `errors`).
-/

namespace Colloquy

namespace Reply

/-- Whether a reply tells of a pipeline that failed. -/
def isPipelineFailure (reply : Reply) : Bool :=
  reply.source = .failed &&
    (Text.afterPrefix? "Error: pipeline ".toList reply.text.toList).isSome

/-- A text that starts with a longer text starts with the beginning of that. -/
theorem toList_append_of_split {start longer : String} (rest : String)
    (hsplit : longer.toList = start.toList ++ rest.toList) (s : String) :
    (longer ++ s).toList = start.toList ++ (rest ++ s).toList := by
  rw [String.toList_append, hsplit, List.append_assoc, ← String.toList_append]

/-- Every wording of a failed pipeline begins alike. -/
theorem isPipelineFailure_pipeline (e : PipelineError) :
    (Refusal.pipeline e).reply.isPipelineFailure = true := by
  have hbegins : ∃ rest : String, e.message.toList = "pipeline ".toList ++ rest.toList := by
    cases e with
    | request reason =>
      exact ⟨_, toList_append_of_split "request failed: " (by decide) reason⟩
    | reported reason =>
      exact ⟨_, toList_append_of_split "reported an error: " (by decide) reason⟩
    | emptyResponse => exact ⟨"returned an empty response", by decide⟩
  obtain ⟨rest, hrest⟩ := hbegins
  have hjoin : "Error: ".toList ++ "pipeline ".toList = "Error: pipeline ".toList := by decide
  have htext : (Refusal.pipeline e).reply.text.toList =
      "Error: pipeline ".toList ++ rest.toList := by
    rw [← hjoin, List.append_assoc, ← hrest]
    exact String.toList_append
  rw [isPipelineFailure, htext, Text.afterPrefix?_append]
  rfl

/-- No wording of a failed registry begins so. -/
theorem isPipelineFailure_registry (e : StorageError) :
    (Refusal.registry e).reply.isPipelineFailure = false := by
  cases e with
  | connection => decide
  | notFound => decide
  | query reason =>
    have htext : (Refusal.registry (.query reason)).reply.text.toList =
        "Error: ".toList ++ ("query error: ".toList ++ reason.toList) :=
      String.toList_append.trans (congrArg ("Error: ".toList ++ ·) String.toList_append)
    rw [isPipelineFailure, htext]
    rfl

end Reply

/-! ## The parts of a command -/

namespace Stage

/-- Whether a command has been answered by the pipeline, as a number. -/
def answers : Stage → Nat
  | .finished reply => if reply.source = .pipeline then 1 else 0
  | _ => 0

/-- Whether the pipeline has failed a command. -/
def failures : Stage → Nat
  | .finished reply => if reply.isPipelineFailure then 1 else 0
  | _ => 0

/-- Whether a command has been counted: it is in the pipeline, or has been
answered or failed by it. -/
def entries : Stage → Nat
  | .asking _ _ _ _ _ _ => 1
  | .saving _ _ => 1
  | .finished reply => (Stage.finished reply).answers + (Stage.finished reply).failures
  | _ => 0

end Stage

namespace Ticket

/-- Whether a command of a pair of user and room has been answered by the
pipeline. -/
def turns (who : String × String) (t : Ticket) : Nat :=
  if (t.request.user, t.request.room) = who then t.stage.answers else 0

/-- The exchange of a room that a command has stored. -/
def stored (room : String) (t : Ticket) : List String :=
  if t.request.room = room then
    match t.stage, t.answer with
    | .finished ⟨text, .pipeline⟩, _ => [Memory.exchange t.request.command.content text]
    | .saving text (.writing _), some _ => [Memory.exchange t.request.command.content text]
    | _, _ => []
  else []

/-- A command that is not answered, and has no text to save, has stored
nothing. -/
theorem stored_eq_nil {room : String} {t : Ticket} (hsaving : t.stage.isSaving = false)
    (hanswers : t.stage.answers = 0) : t.stored room = [] := by
  simp only [stored]
  split
  · split
    · rename_i text hstage
      rw [hstage] at hanswers
      cases hanswers
    · rename_i text record _ hstage _
      rw [hstage] at hsaving
      cases hsaving
    · rfl
  · rfl

variable {W : Type}

/-- What holds of a command at steady ports: it works with the key of its room,
and the first write of its exchange succeeds. -/
structure Fair (p : Ports W) (keyOf : String → RoomKey) (t : Ticket) : Prop where
  expected : ∀ answer, t.answer = some answer → t.stage.expects answer = true
  keyed : ∀ key, t.stage.key? = some key → key = keyOf t.request.room
  found : ∀ key, t.answer = some (.key (.ok (some key))) → key = keyOf t.request.room
  writes : ∀ text save, t.stage = .saving text save → ∃ record, save = .writing record ∧
    p.readable (keyOf t.request.room) record =
      some (Memory.exchange t.request.command.content text)
  written : ∀ result, t.answer = some (.written result) → result = .ok ()

variable {p : Ports W} {keyOf : String → RoomKey} {r : Request} {stage : Stage}

/-- Of a command that has seen its answers. -/
theorem Fair.unanswered (hkeyed : ∀ key, stage.key? = some key → key = keyOf r.room)
    (hwrites : ∀ text save, stage = .saving text save → ∃ record, save = .writing record ∧
      p.readable (keyOf r.room) record = some (Memory.exchange r.command.content text)) :
    Fair p keyOf ⟨r, stage, none⟩ where
  expected _ hanswer := by cases hanswer
  keyed := hkeyed
  found _ hanswer := by cases hanswer
  writes := hwrites
  written _ hanswer := by cases hanswer

/-- Of one that works with a key. -/
theorem Fair.working (hsaving : stage.isSaving = false)
    (hkeyed : ∀ key, stage.key? = some key → key = keyOf r.room) :
    Fair p keyOf ⟨r, stage, none⟩ := by
  refine .unanswered hkeyed fun text save hsave => ?_
  rw [hsave] at hsaving
  cases hsaving

/-- Of one that has no key, and no write before it. -/
theorem Fair.idle (hsaving : stage.isSaving = false) (hkey : stage.key? = none) :
    Fair p keyOf ⟨r, stage, none⟩ := by
  refine .working hsaving fun key hsome => ?_
  rw [hkey] at hsome
  cases hsome

end Ticket

/-! ## The turns in the sessions -/

namespace SessionStore

/-- The turns that the session of a pair counts. -/
def turnsOf (s : SessionStore) (who : String × String) : Json :=
  ((s.sessions.get? who).bind fun session => Named.find? "turns" session.context).getD (.nat 0)

/-- No session that is stored has expired. -/
def Awake (s : SessionStore) (now : Nat) : Prop :=
  ∀ who session, s.sessions.get? who = some session → s.isExpired now session = false

variable {s : SessionStore} {now : Nat} {user room : String}

/-- The session that is due where none has expired. -/
theorem Awake.current (hs : s.Awake now) (user room : String) :
    (s.current now user room).1.context =
      ((s.sessions.get? (user, room)).map Session.context).getD [] := by
  simp only [SessionStore.current]
  cases hget : s.sessions.get? (user, room) with
  | none => rfl
  | some session =>
    simp only [hs _ _ hget]
    rfl

/-- A visit changes the turns of its pair alone. -/
theorem turnsOf_visit {α : Type} (s : SessionStore) (now : Nat) (user room : String)
    (change : Session → α × Context) (who : String × String) :
    (s.visit now user room change).2.turnsOf who =
      if (user, room) = who then
        (Named.find? "turns" (change (s.current now user room).1).2).getD (.nat 0)
      else s.turnsOf who := by
  simp only [visit, turnsOf, Table.get?_put]
  split
  · rfl
  · rfl

/-- To open a session counts no turn. -/
theorem Awake.turnsOf_getOrCreate (hs : s.Awake now) (who : String × String) :
    (s.getOrCreate now user room).2.turnsOf who = s.turnsOf who := by
  rw [getOrCreate, turnsOf_visit]
  split
  · rename_i hwho
    rw [hs.current, turnsOf, hwho]
    cases s.sessions.get? who <;> rfl
  · rfl

theorem natOr_nat (n : Nat) : (Json.nat n).natOr 0 = n := by
  simp [Json.natOr, Json.nat, Json.nat?]

/-- What is counted up is what the session counts. -/
theorem Awake.count_turns (hs : s.Awake now) {n : Nat} (hn : s.turnsOf (user, room) = .nat n) :
    count "turns" (s.current now user room).1.context = n := by
  rw [turnsOf] at hn
  rw [hs.current, count, ← natOr_nat n, ← hn]
  cases s.sessions.get? (user, room) with
  | none => rfl
  | some session =>
    simp only [Option.map_some, Option.getD_some, Option.bind_some]
    cases Named.find? "turns" session.context <;> rfl

end SessionStore

/-- **A turn that is recorded is counted** for its pair, and for no other. -/
theorem Desk.turnsOf_recordTurn {d : Desk} {now : Nat} (hs : d.sessions.Awake now) (r : Request)
    (text : String) {who : String × String} {n : Nat}
    (hn : d.sessions.turnsOf who = .nat (n % Nat.pow 2 64)) :
    (d.recordTurn now r text).sessions.turnsOf who =
      .nat ((n + if (r.user, r.room) = who then 1 else 0) % Nat.pow 2 64) := by
  have hvisit := d.sessions.turnsOf_visit now r.user r.room (fun session =>
      ((), Named.insert "last_task" (.text r.command.task)
        (Named.insert "last_agent" (.text r.command.agent)
          (SessionStore.countUp "turns" session.context)))) who
  refine Eq.trans hvisit ?_
  by_cases hwho : (r.user, r.room) = who
  · subst hwho
    rw [if_pos rfl, if_pos rfl, Named.find?_insert_of_ne (by decide),
      Named.find?_insert_of_ne (by decide), SessionStore.countUp, Named.find?_insert_self,
      Option.getD_some, hs.count_turns hn, Nat.mod_add_mod]
  · rw [if_neg hwho, if_neg hwho, Nat.add_zero, hn]

/-! ## One step -/

namespace Stage

theorem answers_refused (refusal : Refusal) : (refused refusal).answers = 0 := by
  cases refusal <;> rfl

theorem failures_pipeline (e : PipelineError) : (refused (.pipeline e)).failures = 1 :=
  if_pos (Reply.isPipelineFailure_pipeline e)

theorem failures_registry (e : StorageError) : (refused (.registry e)).failures = 0 :=
  if_neg (by rw [Reply.isPipelineFailure_registry e]; decide)

theorem entries_refused (refusal : Refusal) :
    (refused refusal).entries = (refused refusal).failures := by
  have hanswers := answers_refused refusal
  simp only [refused, entries] at hanswers ⊢
  rw [hanswers, Nat.zero_add]

/-- A stage in which a command has no part in anything. -/
structure IsBlank (stage : Stage) : Prop where
  answers : stage.answers = 0
  failures : stage.failures = 0
  entries : stage.entries = 0
  key : stage.key? = none
  saving : stage.isSaving = false

/-- A command that comes has no part in anything yet. -/
theorem Begun.isBlank {d : Desk} {now : Nat} {r : Request} {next : Desk × Stage}
    (h : Begun d now r next) : next.2.IsBlank := by
  cases h with
  | overflow => exact ⟨rfl, rfl, rfl, rfl, rfl⟩
  | limited => exact ⟨rfl, rfl, rfl, rfl, rfl⟩
  | cached => exact ⟨rfl, rfl, rfl, rfl, rfl⟩
  | unknown hwhy => rcases hwhy with rfl | rfl <;> exact ⟨rfl, rfl, rfl, rfl, rfl⟩
  | letIn => exact ⟨rfl, rfl, rfl, rfl, rfl⟩

/-- The checks at the front change neither the sessions nor the metrics. -/
theorem Begun.shared {d : Desk} {now : Nat} {r : Request} {next : Desk × Stage}
    (h : Begun d now r next) : next.1.sessions = d.sessions ∧ next.1.metrics = d.metrics := by
  cases h <;> exact ⟨rfl, rfl⟩

variable {W : Type} {p : Ports W} {d : Desk} {w : W} {now : Nat} {r : Request} {stage : Stage}
  {answer : Answer} {next : Desk × W × Stage}

/-- **The requests are counted** as commands enter the pipeline. -/
theorem Next.requests (h : Next p d w now r stage answer next) :
    next.1.metrics.requests + stage.entries = d.metrics.requests + next.2.2.entries := by
  cases h with
  | registryFailed => rw [entries_refused, failures_registry]; rfl
  | unregistered => rfl
  | entered => rfl
  | condensing => rfl
  | read => simp only [Metrics.start, entries]
  | condensed => simp only [Metrics.start, entries]
  | unanswered => rfl
  | failed => rw [entries_refused, failures_pipeline]; rfl
  | answered => rfl
  | rested => rfl
  | unwritten => rfl
  | reconnected => rfl
  | saved => rfl
  | stray => rfl

/-- **The errors are counted** as the pipeline fails commands. -/
theorem Next.errors (h : Next p d w now r stage answer next) :
    next.1.metrics.errors + stage.failures = d.metrics.errors + next.2.2.failures := by
  cases h with
  | registryFailed => rw [failures_registry]; rfl
  | unregistered => rfl
  | entered => rfl
  | condensing => rfl
  | read => rfl
  | condensed => rfl
  | unanswered => rfl
  | failed => rw [failures_pipeline]; rfl
  | answered => rfl
  | rested => rfl
  | unwritten => rfl
  | reconnected => rfl
  | saved => rfl
  | stray => rfl

theorem answers_of_expects (h : stage.expects answer = true) : stage.answers = 0 := by
  cases stage with
  | finished reply => cases answer <;> cases h
  | broken => rfl
  | lookup agent task => rfl
  | loading agent task key load => rfl
  | asking agent task key context since run => rfl
  | saving text save => rfl

/-- **The turns are counted** as commands are answered. -/
theorem Next.turns (h : Next p d w now r stage answer next) (hs : d.sessions.Awake now)
    (hexpected : stage.expects answer = true) {who : String × String} {n : Nat}
    (hn : d.sessions.turnsOf who = .nat (n % Nat.pow 2 64)) :
    next.1.sessions.turnsOf who =
      .nat ((n + if (r.user, r.room) = who then next.2.2.answers else 0) % Nat.pow 2 64) := by
  -- every step but the last one of an answered command leaves the turns as they are
  have hsame : next.2.2.answers = 0 → next.1.sessions.turnsOf who = d.sessions.turnsOf who →
      next.1.sessions.turnsOf who =
        .nat ((n + if (r.user, r.room) = who then next.2.2.answers else 0) % Nat.pow 2 64) := by
    intro hanswers hturns
    rw [hturns, hn, hanswers, ite_self, Nat.add_zero]
  cases h with
  | registryFailed => exact hsame (answers_refused _) rfl
  | unregistered => exact hsame (answers_refused _) rfl
  | entered => exact hsame rfl (hs.turnsOf_getOrCreate who)
  | condensing => exact hsame rfl rfl
  | read => exact hsame rfl rfl
  | condensed => exact hsame rfl rfl
  | unanswered => exact hsame rfl rfl
  | failed => exact hsame (answers_refused _) rfl
  | answered => exact hsame rfl rfl
  | rested => exact hsame rfl rfl
  | unwritten => exact hsame rfl rfl
  | reconnected => exact hsame rfl rfl
  | saved => exact Desk.turnsOf_recordTurn hs r _ hn
  | stray hstray =>
    rw [hstray] at hexpected
    cases hexpected

variable {good : W → Prop} {records : W → String → List (List UInt8)} {keyOf : String → RoomKey}

/-- **A step stores nothing**: what a command has stored when its write was
answered is what it has stored when it goes on. -/
theorem Next.stored (hp : p.Steady good records keyOf) (hw : good w)
    (h : Next p d w now r stage answer next) (ht : Ticket.Fair p keyOf ⟨r, stage, some answer⟩) :
    good next.2.1 ∧ records next.2.1 = records w ∧
      ∀ room, Ticket.stored room ⟨r, next.2.2, none⟩ =
        Ticket.stored room ⟨r, stage, some answer⟩ := by
  cases h with
  | registryFailed => exact ⟨hw, rfl, fun _ => rfl⟩
  | unregistered => exact ⟨hw, rfl, fun _ => rfl⟩
  | entered => exact ⟨hw, rfl, fun _ => rfl⟩
  | condensing => exact ⟨hw, rfl, fun _ => rfl⟩
  | read => exact ⟨hw, rfl, fun _ => rfl⟩
  | condensed => exact ⟨hw, rfl, fun _ => rfl⟩
  | unanswered => exact ⟨hw, rfl, fun _ => rfl⟩
  | failed => exact ⟨hw, rfl, fun _ => rfl⟩
  | @answered _ _ key _ _ _ _ text _ =>
    have hread := hp.read w
      (.encrypt key (Text.Utf8.encode (Memory.exchange r.command.content text))) hw rfl
    have hgood := hp.keeps w
      (.encrypt key (Text.Utf8.encode (Memory.exchange r.command.content text))) hw
    exact ⟨hgood, hread, fun _ => rfl⟩
  | rested => exact ⟨hw, rfl, fun _ => rfl⟩
  | unwritten => cases ht.written _ rfl
  | reconnected =>
    obtain ⟨record, hsave, -⟩ := ht.writes _ _ rfl
    cases hsave
  | saved =>
    obtain ⟨record, rfl, -⟩ := ht.writes _ _ rfl
    exact ⟨hw, rfl, fun _ => rfl⟩
  | stray hstray =>
    have hexpected := ht.expected answer rfl
    rw [hstray] at hexpected
    cases hexpected

/-- **A command stays fair.** -/
theorem Next.fair (hp : p.Steady good records keyOf) (hw : good w)
    (h : Next p d w now r stage answer next) (ht : Ticket.Fair p keyOf ⟨r, stage, some answer⟩) :
    Ticket.Fair p keyOf ⟨r, next.2.2, none⟩ := by
  cases h with
  | registryFailed => exact .idle rfl rfl
  | unregistered => exact .idle rfl rfl
  | entered =>
    refine .working rfl fun key hkey => ?_
    cases hkey
    exact ht.found _ rfl
  | condensing => exact .working rfl ht.keyed
  | read => exact .working rfl ht.keyed
  | condensed => exact .working rfl ht.keyed
  | unanswered => exact .working rfl ht.keyed
  | failed => exact .idle rfl rfl
  | @answered _ _ key _ _ _ _ text _ =>
    refine .unanswered (fun key hkey => by cases hkey) fun text' save hsave => ?_
    cases hsave
    obtain ⟨record, hsealed, hopened⟩ :=
      hp.sealed w key (Text.Utf8.encode (Memory.exchange r.command.content text)) hw
    refine ⟨_, rfl, ?_⟩
    rw [← ht.keyed key rfl, hsealed]
    simp only [Saving.recordOf, Ports.readable, hopened, Text.Utf8.decode?_encode]
  | rested => exact .working rfl ht.keyed
  | unwritten => cases ht.written _ rfl
  | reconnected =>
    obtain ⟨record, hsave, -⟩ := ht.writes _ _ rfl
    cases hsave
  | saved => exact .idle rfl rfl
  | stray hstray =>
    have hexpected := ht.expected answer rfl
    rw [hstray] at hexpected
    cases hexpected

end Stage

end Colloquy
