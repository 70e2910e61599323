import Colloquy.Proofs.Dispatch.Course
import Colloquy.Proofs.Dispatch.Effect
/-!
# One step of a command

Between two waits a command takes one step. `Stage.Begun` says what its first
step can be and `Stage.Next` what the step behind an answer can be, each with
the desk, the world and the stage that it leads to; whatever is proved about
commands step by step is proved by their cases. `Underway` are the halls that a
command comes through when it is alone, and a run ends at one of them or in a
wait (`command_ends`).
-/

namespace Colloquy

/-- Whether a call is meant to store a record. -/
def Call.isWrite : Call → Bool
  | .appendRecord _ _ => true
  | _ => false

/-- **What every use but a write leaves as it is**, a call but a write does. -/
theorem Ports.serve_read {W β : Type} {p : Ports W} {view : W → β} {w : W}
    (hread : ∀ u, u.isWrite = false → view (p.after w u) = view w) {call : Call}
    (hcall : call.isWrite = false) : view (p.serve w call).1 = view w := by
  cases call with
  | lookupKey room => exact hread (.lookupKey room) rfl
  | listRecords room limit => exact hread (.listRecords room limit) rfl
  | summarize history => exact hread (.summarize history) rfl
  | invoke agent task context input => exact hread (.invoke agent task context input) rfl
  | pause ms => rfl
  | reconnect => exact hread .reconnect rfl
  | appendRecord room record => cases hcall

namespace Stage

variable {W : Type}

/-- Whether a command waits for a call. -/
def isWaiting : Stage → Bool
  | .finished _ => false
  | .broken => false
  | _ => true

/-- The key that a command works with. -/
def key? : Stage → Option RoomKey
  | .loading _ _ key _ => some key
  | .asking _ _ key _ _ _ => some key
  | _ => none

/-- The record that a command has still to write. -/
def record? : Stage → Option (List UInt8)
  | .saving _ (.writing record) => some record
  | .saving _ (.reconnecting record) => some record
  | .saving _ (.writingAgain record) => some record
  | _ => none

/-- Whether a command has its text and saves its exchange. -/
def isSaving : Stage → Bool
  | .saving _ _ => true
  | _ => false

/-- **The first steps of a command.** -/
inductive Begun (d : Desk) (now : Nat) (r : Request) : Desk × Stage → Prop
  /-- The rate window would close at an instant that cannot be represented. -/
  | overflow : Begun d now r (d.counted now r, .broken)
  /-- The user's window is full. -/
  | limited : Begun d now r (d.counted now r, refused .rateLimitExceeded)
  /-- The cache has a live reply. -/
  | cached {text : String} : d.cache.live? now (Desk.cacheKey r) = some text →
      Begun d now r (d.counted now r, .finished ⟨text, .cache⟩)
  /-- The catalog does not know the agent or the task. -/
  | unknown {refusal : Refusal} :
      refusal = .unknownAgent r.command.agent ∨ refusal = .unknownTask r.command.task →
      Begun d now r (d.checked now r, refused refusal)
  /-- The request is let in. -/
  | letIn {agent : AgentSpec} {task : TaskSpec} :
      Begun d now r (d.checked now r, .lookup agent task)

theorem start_begun (d : Desk) (now : Nat) (r : Request) : Begun d now r (start d now r) := by
  have hlisted := ofCatalog_listed d r.command
  rw [Hall.start_eq]
  split
  · exact .overflow
  · exact .limited
  · split
    · rename_i text hlive
      exact .cached hlive
    · generalize ofCatalog d r.command = stage at hlisted ⊢
      cases hlisted with
      | noAgent => exact .unknown (.inl rfl)
      | noTask => exact .unknown (.inr rfl)
      | known => exact .letIn

/-- The checks at the front put nothing into the cache. -/
theorem Begun.cache {d : Desk} {now : Nat} {r : Request} {next : Desk × Stage}
    (h : Begun d now r next) : next.1.cache.Within d.cache := by
  have hdrop := d.cache.dropExpired_within now (Desk.cacheKey r)
  cases h with
  | overflow => exact .refl _
  | limited => exact .refl _
  | cached => exact .refl _
  | unknown => exact hdrop
  | letIn => exact hdrop

theorem isWaiting_of_call {d : Desk} {r : Request} {stage : Stage} {call : Call}
    (hc : stage.call? d r = some call) : stage.isWaiting = true := by
  cases calls_of_call hc <;> rfl

/-- A write is that of the record of a save, in the room of the command. -/
theorem write_of_call {d : Desk} {r : Request} {stage : Stage} {room : String}
    {record : List UInt8} (hc : stage.call? d r = some (.appendRecord room record)) :
    room = r.room ∧ stage.record? = some record ∧ stage.isSaving = true := by
  cases calls_of_call hc with
  | write => exact ⟨rfl, rfl, rfl⟩
  | writeAgain => exact ⟨rfl, rfl, rfl⟩

/-- A key is looked up for the room of the command. -/
theorem room_of_lookup {d : Desk} {r : Request} {stage : Stage} {room : String}
    (hc : stage.call? d r = some (.lookupKey room)) : room = r.room := by
  cases calls_of_call hc
  rfl

/-- Whether an answer is one that a stage waits for. -/
def expects : Stage → Answer → Bool
  | .lookup _ _, .key _ => true
  | .loading _ _ _ .reading, .records _ => true
  | .loading _ _ _ (.summarizing _ _), .summary _ => true
  | .asking _ _ _ _ _ (.attempting _), .output _ => true
  | .asking _ _ _ _ _ (.pausing _), .waited => true
  | .saving _ (.writing _), .written _ => true
  | .saving _ (.reconnecting _), .written _ => true
  | .saving _ (.writingAgain _), .written _ => true
  | _, _ => false

/-- The answer of the call that a command waits for is such a one. -/
theorem expects_of_call {d : Desk} {r : Request} {stage : Stage} {call : Call}
    (hc : stage.call? d r = some call) (p : Ports W) (w : W) :
    stage.expects (p.serve w call).2.2 = true := by
  cases calls_of_call hc <;> rfl

/-- **The steps behind an answer.** -/
inductive Next (p : Ports W) (d : Desk) (w : W) (now : Nat) (r : Request) :
    Stage → Answer → Desk × W × Stage → Prop
  /-- The registry fails. -/
  | registryFailed {agent : AgentSpec} {task : TaskSpec} {e : StorageError} :
      Next p d w now r (.lookup agent task) (.key (.error e)) (d, w, refused (.registry e))
  /-- The room has no key. -/
  | unregistered {agent : AgentSpec} {task : TaskSpec} :
      Next p d w now r (.lookup agent task) (.key (.ok none)) (d, w, refused .roomNotRegistered)
  /-- The room has a key, and the session of the pair is live from now on. -/
  | entered {agent : AgentSpec} {task : TaskSpec} {key : RoomKey} :
      Next p d w now r (.lookup agent task) (.key (.ok (some key)))
        (Hall.opened d now r, w, .loading agent task key .reading)
  /-- The records are over budget. -/
  | condensing {agent : AgentSpec} {task : TaskSpec} {key : RoomKey} {records : List String}
      {skipped : Nat} {result : Except StorageError (List (List UInt8))} :
      Loading.afterRead d.memory (p.readable key) result = .summarizing records skipped →
      Next p d w now r (.loading agent task key .reading) (.records result)
        (d, w, .loading agent task key (.summarizing records skipped))
  /-- The records fit, or cannot be read. -/
  | read {agent : AgentSpec} {task : TaskSpec} {key : RoomKey} {window : ConversationWindow}
      {result : Except StorageError (List (List UInt8))} :
      Loading.afterRead d.memory (p.readable key) result = .loaded window →
      Next p d w now r (.loading agent task key .reading) (.records result)
        ({ d with metrics := d.metrics.start }, w,
          .asking agent task key window.text now (.attempting 0))
  /-- The summary is there, or is not to be had. -/
  | condensed {agent : AgentSpec} {task : TaskSpec} {key : RoomKey} {records : List String}
      {skipped : Nat} {result : Except PipelineError String} :
      Next p d w now r (.loading agent task key (.summarizing records skipped)) (.summary result)
        ({ d with metrics := d.metrics.start }, w,
          .asking agent task key (Loading.afterSummary d.memory records skipped result).text now
            (.attempting 0))
  /-- An attempt fails, and more are left. -/
  | unanswered {agent : AgentSpec} {task : TaskSpec} {key : RoomKey} {context : String}
      {since made : Nat} {result : Except PipelineError PipelineOutput} :
      made + 1 < d.retry.attempts →
      Next p d w now r (.asking agent task key context since (.attempting made)) (.output result)
        (d, w, .asking agent task key context since (.pausing (made + 1)))
  /-- The last attempt fails. -/
  | failed {agent : AgentSpec} {task : TaskSpec} {key : RoomKey} {context : String}
      {since made : Nat} {result : Except PipelineError PipelineOutput} {e : PipelineError} :
      result.bind PipelineOutput.result = .error e →
      Next p d w now r (.asking agent task key context since (.attempting made)) (.output result)
        ({ d with metrics := d.metrics.finish (now - since) true }, w, refused (.pipeline e))
  /-- An attempt succeeds, and the exchange is sealed. -/
  | answered {agent : AgentSpec} {task : TaskSpec} {key : RoomKey} {context : String}
      {since made : Nat} {result : Except PipelineError PipelineOutput} {text : String} :
      result.bind PipelineOutput.result = .ok text →
      Next p d w now r (.asking agent task key context since (.attempting made)) (.output result)
        ({ d with metrics := d.metrics.finish (now - since) false },
          p.after w (.encrypt key (Text.Utf8.encode (Memory.exchange r.command.content text))),
          .saving text (.writing (Saving.recordOf (Memory.exchange r.command.content text)
            (p.encrypt key
              (Text.Utf8.encode (Memory.exchange r.command.content text)) w).2)))
  /-- The pause between two attempts is over. -/
  | rested {agent : AgentSpec} {task : TaskSpec} {key : RoomKey} {context : String}
      {since made : Nat} :
      Next p d w now r (.asking agent task key context since (.pausing made)) .waited
        (d, w, .asking agent task key context since (.attempting made))
  /-- The first write fails. -/
  | unwritten {text : String} {record : List UInt8} {e : StorageError} :
      Next p d w now r (.saving text (.writing record)) (.written (.error e))
        (d, w, .saving text (.reconnecting record))
  /-- The store is there again. -/
  | reconnected {text : String} {record : List UInt8} :
      Next p d w now r (.saving text (.reconnecting record)) (.written (.ok ()))
        (d, w, .saving text (.writingAgain record))
  /-- The save is over, whether the exchange is stored or not. -/
  | saved {text : String} {save : Saving} {result : Except StorageError Unit} :
      (∃ record, save = .writing record ∧ result = .ok ()) ∨
        (∃ record e, save = .reconnecting record ∧ result = .error e) ∨
        (∃ record, save = .writingAgain record) →
      Next p d w now r (.saving text save) (.written result)
        (d.recordTurn now r text, w, .finished ⟨text, .pipeline⟩)
  /-- The answer belongs to another wait. -/
  | stray {stage : Stage} {answer : Answer} : stage.expects answer = false →
      Next p d w now r stage answer (d, w, stage)

/-- A load that has read its records leaves them to be summarized, or has its
window. -/
theorem afterLoad_next {p : Ports W} {d : Desk} {w : W} {now : Nat} {r : Request}
    {agent : AgentSpec} {task : TaskSpec} {key : RoomKey}
    (result : Except StorageError (List (List UInt8))) :
    Next p d w now r (.loading agent task key .reading) (.records result)
      (let next := afterLoad d now agent task key
          (Loading.afterRead d.memory (p.readable key) result)
       (next.1, w, next.2)) := by
  cases hload : Loading.afterRead d.memory (p.readable key) result with
  | reading => exact absurd hload (Hall.afterRead_ne_reading _ _ _)
  | loaded window => exact .read hload
  | summarizing records skipped => exact .condensing hload

/-- An attempt settles the run, or leaves a pause behind it. -/
theorem afterAttempt_next {p : Ports W} {d : Desk} {w : W} {now : Nat} {r : Request}
    {agent : AgentSpec} {task : TaskSpec} {key : RoomKey} {context : String} {since made : Nat}
    (result : Except PipelineError PipelineOutput) :
    Next p d w now r (.asking agent task key context since (.attempting made)) (.output result)
      (afterAttempt p d w now r agent task key context since
        (d.retry.afterAttempt made (result.bind PipelineOutput.result))) := by
  cases hresult : result.bind PipelineOutput.result with
  | ok text => exact .answered hresult
  | error e =>
    simp only [RetryPolicy.afterAttempt]
    split
    · rename_i hmore
      exact .unanswered hmore
    · exact .failed hresult

/-- **Every step behind an answer is one of these.** -/
theorem resume_next (p : Ports W) (d : Desk) (w : W) (now : Nat) (r : Request) (stage : Stage)
    (answer : Answer) : Next p d w now r stage answer (stage.resume p d w now r answer) := by
  unfold resume
  split
  · exact .registryFailed
  · exact .unregistered
  · exact .entered
  · exact afterLoad_next _
  · exact .condensed
  · exact afterAttempt_next _
  · exact .rested
  · rename_i text record result
    cases result with
    | ok stored => exact .saved (.inl ⟨record, rfl, rfl⟩)
    | error e => exact .unwritten
  · rename_i text record result
    cases result with
    | ok stored => exact .reconnected
    | error e => exact .saved (.inr (.inl ⟨record, e, rfl, rfl⟩))
  · rename_i text record result
    cases result with
    | ok stored => exact .saved (.inr (.inr ⟨record, rfl⟩))
    | error e => exact .saved (.inr (.inr ⟨record, rfl⟩))
  · rename_i hfailed hnone hkey _ _ _ _ _ _ _
    refine .stray ?_
    unfold expects
    split
    · rename_i agent task result _ _ _ _ _ _ _
      rcases result with e | _ | key
      · exact absurd rfl (hfailed agent task e rfl)
      · exact absurd rfl (hnone agent task rfl)
      · exact absurd rfl (hkey agent task key rfl)
    all_goals grind

end Stage

namespace Hall

variable {W : Type}

/-! ## A command alone -/

/-- **The halls that a command comes through** when it is alone, with the stage
it has reached. An answer may take any time. -/
inductive Underway (p : Ports W) (h₀ : Hall W) (r : Request) : Hall W → Stage → Prop
  /-- The command has taken its first step. -/
  | begun : Underway p h₀ r ⟨(Stage.start h₀.desk h₀.now r).1, h₀.world, h₀.now⟩
      (Stage.start h₀.desk h₀.now r).2
  /-- A call is served, and the command takes its step behind the answer. -/
  | answered {h : Hall W} {stage : Stage} {call : Call} (later : Nat) :
      Underway p h₀ r h stage → stage.call? h.desk r = some call → h.now ≤ later →
      (next : Desk × W × Stage) →
      next = stage.resume p h.desk (p.serve h.world call).1 later r (p.serve h.world call).2.2 →
      Underway p h₀ r ⟨next.1, next.2.1, later⟩ next.2.2

variable {p : Ports W} {h₀ : Hall W} {r : Request}

/-- A command that is let in and finds the key of its room comes to the load. -/
theorem Underway.entered {agent : AgentSpec} {task : TaskSpec} {key : RoomKey}
    (hstart : (Stage.start h₀.desk h₀.now r).2 = .lookup agent task)
    (hkey : (p.lookupKey r.room h₀.world).2 = .ok (some key)) :
    Underway p h₀ r ⟨opened (Stage.start h₀.desk h₀.now r).1 h₀.now r,
      (p.lookupKey r.room h₀.world).1, h₀.now⟩ (.loading agent task key .reading) := by
  have hbegun : Underway p h₀ r ⟨(Stage.start h₀.desk h₀.now r).1, h₀.world, h₀.now⟩
      (.lookup agent task) := hstart ▸ .begun
  refine hbegun.answered h₀.now rfl (Nat.le_refl _)
    (opened (Stage.start h₀.desk h₀.now r).1 h₀.now r, (p.lookupKey r.room h₀.world).1,
      .loading agent task key .reading) ?_
  simp only [Ports.serve, hkey]
  rfl

/-- **Where a command ends**: with its reply, without one, or dropped in a
wait. -/
inductive Ending (p : Ports W) (h₀ : Hall W) (r : Request) : Hall W × Outcome → Prop
  | replied {h : Hall W} {reply : Reply} : Underway p h₀ r h (.finished reply) →
      Ending p h₀ r (h, .replied reply)
  | broken {h : Hall W} {stage : Stage} : Underway p h₀ r h stage → Ending p h₀ r (h, .broken)
  | dropped {h : Hall W} {stage : Stage} {call : Call} {instant : Nat} : Underway p h₀ r h stage →
      stage.call? h.desk r = some call → h.now ≤ instant →
      Ending p h₀ r (drop { h with world := (p.serve h.world call).1 } instant stage, .dropped)

/-- A run that goes on from a hall that a command comes through. -/
theorem runFrom_ends {deadline : Option Nat} (n : Nat) :
    ∀ (h : Hall W) (stage : Stage), Underway p h₀ r h stage → h.now ≤ deadline.getD h.now →
      Ending p h₀ r (runFrom p deadline r h stage n) := by
  induction n with
  | zero => intro h stage hunder _; exact .broken hunder
  | succ n ih =>
    intro h stage hunder hnow
    cases hc : stage.call? h.desk r with
    | none =>
      cases stage with
      | finished reply => exact .replied hunder
      | broken => exact .broken hunder
      | lookup agent task => cases hc
      | loading agent task key load => simp only [runFrom, hc]; exact .broken hunder
      | asking agent task key context since run => simp only [runFrom, hc]; exact .broken hunder
      | saving text save => simp only [runFrom, hc]; exact .broken hunder
    | some call =>
      have hwait := Clock.le_wake h.now (p.serve h.world call).2.1
      rw [runFrom_call_deadline hc]
      simp only
      cases deadline with
      | none =>
        rw [if_neg (by simp [Clock.isPast])]
        exact ih _ _ (.answered _ hunder hc hwait _ rfl) (Nat.le_refl _)
      | some d =>
        split
        · exact .dropped hunder hc hnow
        · rename_i hpast
          refine ih _ _ (.answered _ hunder hc hwait _ rfl) ?_
          simpa [Clock.isPast] using hpast

/-- **Every command ends so**, with or without a timeout. -/
theorem command_ends (p : Ports W) (h : Hall W) (r : Request) (timeout : Option Nat) :
    Ending p h r (h.command p r timeout) := by
  refine runFrom_ends _ _ _ .begun ?_
  cases timeout with
  | none => exact Nat.le_refl _
  | some ms => exact Clock.le_wake h.now ms

/-- A command that is dropped was waiting for a call, which is carried out. -/
theorem Ending.of_dropped {out : Hall W × Outcome} (hend : Ending p h₀ r out)
    (hout : out.2 = .dropped) :
    ∃ h stage call instant, Underway p h₀ r h stage ∧ stage.call? h.desk r = some call ∧
      out.1 = drop { h with world := (p.serve h.world call).1 } instant stage := by
  cases hend with
  | dropped hunder hc _ => exact ⟨_, _, _, _, hunder, hc, rfl⟩
  | replied => cases hout
  | broken => cases hout

/-- **What the steps of a command keep, it keeps**: a fact about a hall and a
stage holds wherever the command comes, if its first step brings it about and
each later one hands it on. -/
theorem Underway.keeps {J : Hall W → Stage → Prop}
    (h0 : J ⟨(Stage.start h₀.desk h₀.now r).1, h₀.world, h₀.now⟩ (Stage.start h₀.desk h₀.now r).2)
    (hstep : ∀ h stage call later next, stage.call? h.desk r = some call → h.now ≤ later →
      Stage.Next p h.desk (p.serve h.world call).1 later r stage (p.serve h.world call).2.2 next →
      J h stage → J ⟨next.1, next.2.1, later⟩ next.2.2)
    {h : Hall W} {stage : Stage} (hunder : Underway p h₀ r h stage) : J h stage := by
  induction hunder with
  | begun => exact h0
  | answered later _ hc hlater next hnext ih =>
    exact hstep _ _ _ _ _ hc hlater (hnext ▸ Stage.resume_next p _ _ _ _ _ _) ih

end Hall

end Colloquy
