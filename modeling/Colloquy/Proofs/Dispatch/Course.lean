import Colloquy.Dispatch.Run
import Colloquy.Proofs.ResponseCache
/-!
# The course of a command at one go

`Hall.command` walks a command from wait to wait. When nothing else happens
in between, the walk is one phase after another: the room key, the window,
the attempts, the record of the exchange. `Hall.serve` is that sequence, and
`command_eq_serve` says that the walk is it, so that a command comes to an
end for every behaviour of the ports. A deadline that does not drop the
command changes nothing (`command_eq_of_replied`). What the catalog makes of a
command is `Stage.Listed`, the calls that it waits for are `Stage.Calls`, and
`Course` has the ways it can end.
-/

namespace Colloquy

/-- A world at an instant. -/
structure Scene (W : Type) where
  world : W
  now : Nat

namespace Ports

variable {W : Type} (p : Ports W)

/-- Looks up the key of a room. -/
def fetchKey (room : String) (s : Scene W) : Scene W × Except StorageError (Option RoomKey) :=
  (⟨(p.lookupKey room s.world).1, Clock.wake s.now 0⟩, (p.lookupKey room s.world).2)

/-- Brings a load to its end: the summary is asked for when the records are
over budget. -/
def finishLoad (m : MemorySettings) (s : Scene W) : Loading → Scene W × ConversationWindow
  | .loaded window => (s, window)
  | .reading => (s, .empty)
  | .summarizing records skipped =>
    let (w, ms, summary) := p.summarize (Memory.joined records) s.world
    (⟨w, Clock.wake s.now ms⟩, Loading.afterSummary m records skipped summary)

/-- Loads the window of a room. -/
def fetchWindow (m : MemorySettings) (room : String) (key : RoomKey) (s : Scene W) :
    Scene W × ConversationWindow :=
  let (w, result) := p.listRecords room m.maxRecords s.world
  p.finishLoad m ⟨w, Clock.wake s.now 0⟩ (Loading.afterRead m (p.readable key) result)

/-- One attempt at the pipeline. -/
def attempt (agent : AgentSpec) (task : TaskSpec) (context input : String) (s : Scene W) :
    Scene W × Except PipelineError String :=
  let (w, ms, output) := p.invoke agent task context input s.world
  (⟨w, Clock.wake s.now ms⟩, output.bind PipelineOutput.result)

/-- Attempts at the pipeline up to the first success, with a pause behind each
that fails while others are left. -/
def ask (delay : Nat) (agent : AgentSpec) (task : TaskSpec) (context input : String) :
    Nat → Scene W → Scene W × Except PipelineError String
  | 0, s => p.attempt agent task context input s
  | left + 1, s =>
    match p.attempt agent task context input s with
    | (s, .ok text) => (s, .ok text)
    | (s, .error _) => ask delay agent task context input left ⟨s.world, Clock.wake s.now delay⟩

/-- Writes a record of a room. -/
def write (room : String) (record : List UInt8) (s : Scene W) :
    Scene W × Except StorageError Unit :=
  (⟨(p.appendRecord room record s.world).1, Clock.wake s.now 0⟩,
    (p.appendRecord room record s.world).2)

/-- Writes a record of a room, once more after a reconnection if it fails. -/
def file (room : String) (record : List UInt8) (s : Scene W) : Scene W :=
  match p.write room record s with
  | (s, .ok _) => s
  | (s, .error _) =>
    let s' : Scene W := ⟨(p.reconnect s.world).1, Clock.wake s.now 0⟩
    match (p.reconnect s.world).2 with
    | .ok _ => (p.write room record s').1
    | .error _ => s'

/-- Seals an exchange and files it. -/
def keep (room : String) (key : RoomKey) (plaintext : String) (s : Scene W) : Scene W :=
  let (w, sealed) := p.encrypt key (Text.Utf8.encode plaintext) s.world
  p.file room (Saving.recordOf plaintext sealed) ⟨w, s.now⟩

end Ports

/-! ## The checks at the front -/

namespace Desk

variable (d : Desk) (now : Nat) (r : Request)

/-- The desk with a request counted by the limiter. -/
def counted : Desk := { d with limiter := (d.limiter.allow now r.user).2 }

/-- The desk behind a look into the cache, too, where the expired entry of the
request is dropped. -/
def checked : Desk :=
  { d.counted now r with cache := d.cache.dropExpired now (cacheKey r) }

/-- The desk behind the pipeline: the session of the pair is live since an
instant, and the metrics have moved on. -/
def consulted (since : Nat) (metrics : Metrics) : Desk :=
  { d.checked now r with
    sessions := (d.sessions.getOrCreate since r.user r.room).2
    metrics := metrics }

end Desk

namespace Stage

/-- **What the catalog makes of a command**: it refuses an agent or a task that it
does not know, and any other command is to be looked up. -/
inductive Listed (d : Desk) (c : ChatCommand) : Stage → Prop
  | noAgent : d.catalog.agent? c.agent = none → Listed d c (refused (.unknownAgent c.agent))
  | noTask {agent : AgentSpec} : d.catalog.agent? c.agent = some agent →
      d.catalog.task? c.task = none → Listed d c (refused (.unknownTask c.task))
  | known {agent : AgentSpec} {task : TaskSpec} : d.catalog.agent? c.agent = some agent →
      d.catalog.task? c.task = some task → Listed d c (.lookup agent task)

theorem ofCatalog_listed (d : Desk) (c : ChatCommand) : Listed d c (ofCatalog d c) := by
  rw [ofCatalog]
  split
  · rename_i hagent
    exact .noAgent hagent
  · rename_i agent hagent
    split
    · rename_i htask
      exact .noTask hagent htask
    · rename_i task htask
      exact .known hagent htask

/-! ## What a command waits for -/

/-- **The calls that the stages wait for.** -/
inductive Calls (d : Desk) (r : Request) : Stage → Call → Prop
  | lookup {agent : AgentSpec} {task : TaskSpec} :
      Calls d r (.lookup agent task) (.lookupKey r.room)
  | read {agent : AgentSpec} {task : TaskSpec} {key : RoomKey} :
      Calls d r (.loading agent task key .reading) (.listRecords r.room d.memory.maxRecords)
  | condense {agent : AgentSpec} {task : TaskSpec} {key : RoomKey} {records : List String}
      {skipped : Nat} :
      Calls d r (.loading agent task key (.summarizing records skipped))
        (.summarize (Memory.joined records))
  | attempt {agent : AgentSpec} {task : TaskSpec} {key : RoomKey} {context : String}
      {since made : Nat} :
      Calls d r (.asking agent task key context since (.attempting made))
        (.invoke agent task context r.command.content)
  | rest {agent : AgentSpec} {task : TaskSpec} {key : RoomKey} {context : String}
      {since made : Nat} :
      Calls d r (.asking agent task key context since (.pausing made)) (.pause d.retry.delay)
  | write {text : String} {record : List UInt8} :
      Calls d r (.saving text (.writing record)) (.appendRecord r.room record)
  | reconnect {text : String} {record : List UInt8} :
      Calls d r (.saving text (.reconnecting record)) .reconnect
  | writeAgain {text : String} {record : List UInt8} :
      Calls d r (.saving text (.writingAgain record)) (.appendRecord r.room record)

theorem calls_of_call {d : Desk} {r : Request} {stage : Stage} {call : Call}
    (hc : stage.call? d r = some call) : Calls d r stage call := by
  cases stage with
  | lookup agent task => cases hc; exact .lookup
  | loading agent task key load =>
    cases load with
    | reading => cases hc; exact .read
    | summarizing records skipped => cases hc; exact .condense
    | loaded window => cases hc
  | asking agent task key context since run =>
    cases run with
    | attempting made => cases hc; exact .attempt
    | pausing made => cases hc; exact .rest
    | settled result => cases hc
  | saving text save =>
    cases save with
    | writing record => cases hc; exact .write
    | reconnecting record => cases hc; exact .reconnect
    | writingAgain record => cases hc; exact .writeAgain
    | settled stored => cases hc
  | finished reply => cases hc
  | broken => cases hc

end Stage

namespace Hall

variable {W : Type} {p : Ports W} {r : Request}

/-- The checks at the front, by what they find. -/
theorem start_eq (d : Desk) (now : Nat) (r : Request) :
    Stage.start d now r =
      match (d.limiter.allow now r.user).1 with
      | .overflow => (d.counted now r, .broken)
      | .denied => (d.counted now r, Stage.refused .rateLimitExceeded)
      | .allowed =>
        match d.cache.live? now (Desk.cacheKey r) with
        | some text => (d.counted now r, .finished ⟨text, .cache⟩)
        | none => (d.checked now r, Stage.ofCatalog d r.command) := by
  simp only [Stage.start, Desk.checked, Desk.counted]
  rcases d.limiter.allow now r.user with ⟨_ | _ | _, limiter⟩
  · simp only [ResponseCache.get_eq]
    cases hlive : d.cache.live? now (Desk.cacheKey r) with
    | none => rfl
    | some text => simp only [d.cache.dropExpired_of_live hlive]
  · rfl
  · rfl

/-! ## The phases -/

/-- The desk with the session of a request's pair live. -/
def opened (d : Desk) (now : Nat) (r : Request) : Desk :=
  { d with sessions := (d.sessions.getOrCreate now r.user r.room).2 }

/-- The end of a command whose pipeline calls, timed from `since`, gave a
result. -/
def conclude (p : Ports W) (d : Desk) (r : Request) (key : RoomKey) (since : Nat) :
    Scene W × Except PipelineError String → Hall W × Outcome
  | (s, .error e) =>
    (⟨{ d with metrics := d.metrics.finish (s.now - since) true }, s.world, s.now⟩,
      .replied (Refusal.pipeline e).reply)
  | (s, .ok text) =>
    let d := { d with metrics := d.metrics.finish (s.now - since) false }
    let s := p.keep r.room key (Memory.exchange r.command.content text) s
    (⟨d.recordTurn s.now r text, s.world, s.now⟩, .replied ⟨text, .pipeline⟩)

/-- The rest of a command whose window is there. -/
def consult (p : Ports W) (d : Desk) (r : Request) (agent : AgentSpec) (task : TaskSpec)
    (key : RoomKey) : Scene W × ConversationWindow → Hall W × Outcome
  | (s, window) =>
    conclude p { d with metrics := d.metrics.start } r key s.now
      (p.ask d.retry.delay agent task window.text r.command.content (d.retry.attempts - 1) s)

/-- The rest of a command whose room key has been looked up. -/
def enter (p : Ports W) (d : Desk) (r : Request) (agent : AgentSpec) (task : TaskSpec) :
    Scene W × Except StorageError (Option RoomKey) → Hall W × Outcome
  | (s, .error e) => (⟨d, s.world, s.now⟩, .replied (Refusal.registry e).reply)
  | (s, .ok none) => (⟨d, s.world, s.now⟩, .replied Refusal.roomNotRegistered.reply)
  | (s, .ok (some key)) =>
    consult p (opened d s.now r) r agent task key (p.fetchWindow d.memory r.room key s)

/-- Runs a command at one go. -/
def serve (p : Ports W) (h : Hall W) (r : Request) : Hall W × Outcome :=
  match Stage.start h.desk h.now r with
  | (d, .finished reply) => (⟨d, h.world, h.now⟩, .replied reply)
  | (d, .lookup agent task) => enter p d r agent task (p.fetchKey r.room ⟨h.world, h.now⟩)
  | (d, _) => (⟨d, h.world, h.now⟩, .broken)

/-! ## The walk is the sequence -/

/-- **One wait of the walk.** The call is served, and unless the deadline
comes first the command resumes at the instant of the answer. -/
theorem runFrom_call_deadline {deadline : Option Nat} {h : Hall W} {stage : Stage} {c : Call}
    (hc : stage.call? h.desk r = some c) (n : Nat) :
    runFrom p deadline r h stage (n + 1) =
      (let served := p.serve h.world c
       let until' := Clock.wake h.now served.2.1
       if Clock.isPast deadline until' then
         (drop { h with world := served.1 } (deadline.getD until') stage, .dropped)
       else
         let next := stage.resume p h.desk served.1 until' r served.2.2
         runFrom p deadline r ⟨next.1, next.2.1, until'⟩ next.2.2 n) := by
  cases Stage.calls_of_call hc <;> rfl

/-- A stage that waits for a call goes on behind its answer, without a deadline. -/
theorem runFrom_call {h : Hall W} {stage : Stage} {c : Call}
    (hc : stage.call? h.desk r = some c) (n : Nat) :
    runFrom p none r h stage (n + 1) =
      (let served := p.serve h.world c
       let until' := Clock.wake h.now served.2.1
       let next := stage.resume p h.desk served.1 until' r served.2.2
       runFrom p none r ⟨next.1, next.2.1, until'⟩ next.2.2 n) := by
  rw [runFrom_call_deadline hc]
  exact if_neg (by simp [Clock.isPast])

/-- A finished command stays where it is. -/
theorem runFrom_finished (h : Hall W) (reply : Reply) (n : Nat) :
    runFrom p none r h (.finished reply) (n + 1) = (h, .replied reply) := rfl

/-- **The walk through a save** ends in the reply, whichever writes fail. -/
theorem runFrom_saving (h : Hall W) (text : String) (record : List UInt8) (n : Nat) :
    runFrom p none r h (.saving text (.writing record)) (n + 4) =
      (let s := p.file r.room record ⟨h.world, h.now⟩
       (⟨h.desk.recordTurn s.now r text, s.world, s.now⟩, .replied ⟨text, .pipeline⟩)) := by
  rw [runFrom_call (c := .appendRecord r.room record) rfl]
  simp only [Ports.serve, Stage.resume, Ports.file, Ports.write]
  rcases (p.appendRecord r.room record h.world).2 with e | _
  · simp only [Saving.afterWrite, Stage.afterSave]
    rw [runFrom_call (c := .reconnect) rfl]
    simp only [Ports.serve, Stage.resume]
    rcases (p.reconnect (p.appendRecord r.room record h.world).1).2 with e' | _
    · simp only [Saving.afterReconnect, Stage.afterSave]
      exact runFrom_finished _ _ _
    · simp only [Saving.afterReconnect, Stage.afterSave]
      rw [runFrom_call (c := .appendRecord r.room record) rfl]
      simp only [Ports.serve, Stage.resume]
      rcases (p.appendRecord r.room record _).2 with e'' | _ <;>
        · simp only [Saving.afterSecondWrite, Stage.afterSave]
          exact runFrom_finished _ _ _
  · simp only [Saving.afterWrite, Stage.afterSave]
    exact runFrom_finished _ _ _

/-- **The walk through the attempts.** The induction is on the attempts that
are left, each of which takes two waits. -/
theorem runFrom_asking {agent : AgentSpec} {task : TaskSpec} {key : RoomKey} {context : String}
    {since : Nat} (left : Nat) :
    ∀ (h : Hall W) (made n : Nat), made + left + 1 = h.desk.retry.attempts →
      runFrom p none r h (.asking agent task key context since (.attempting made))
          (n + 2 * left + 5) =
        conclude p h.desk r key since
          (p.ask h.desk.retry.delay agent task context r.command.content left ⟨h.world, h.now⟩) := by
  induction left with
  | zero =>
    intro h made n hleft
    rw [runFrom_call (c := .invoke agent task context r.command.content) rfl]
    simp only [Ports.serve, Stage.resume, Ports.ask, Ports.attempt]
    have hlast : ¬ made + 1 < h.desk.retry.attempts := by omega
    rcases (p.invoke agent task context r.command.content h.world).2.2.bind PipelineOutput.result
      with e | text
    · simp only [RetryPolicy.afterAttempt, if_neg hlast, Stage.afterAttempt, conclude]
      exact runFrom_finished _ _ _
    · simp only [RetryPolicy.afterAttempt, Stage.afterAttempt, conclude, Ports.keep]
      exact runFrom_saving _ _ _ _
  | succ left ih =>
    intro h made n hleft
    rw [runFrom_call (c := .invoke agent task context r.command.content) rfl]
    simp only [Ports.serve, Stage.resume, Ports.ask, Ports.attempt]
    have hmore : made + 1 < h.desk.retry.attempts := by omega
    rcases (p.invoke agent task context r.command.content h.world).2.2.bind PipelineOutput.result
      with e | text
    · simp only [RetryPolicy.afterAttempt, if_pos hmore, Stage.afterAttempt]
      rw [show n + 2 * (left + 1) + 4 = (n + 2 * left + 5) + 1 by omega,
        runFrom_call (c := .pause h.desk.retry.delay) rfl]
      simp only [Ports.serve, Stage.resume]
      exact ih _ (made + 1) n (by simp only; omega)
    · simp only [RetryPolicy.afterAttempt, Stage.afterAttempt, conclude, Ports.keep]
      rw [show n + 2 * (left + 1) + 4 = (n + 2 * left + 2) + 4 by omega]
      exact runFrom_saving _ _ _ _

/-- The walk behind a load. -/
theorem runFrom_afterLoad {agent : AgentSpec} {task : TaskSpec} {key : RoomKey} (d : Desk)
    (s : Scene W) (load : Loading) (hload : load ≠ .reading) (n : Nat)
    (hn : 2 * d.retry.attempts + 4 ≤ n) :
    (let next := Stage.afterLoad d s.now agent task key load
     runFrom p none r ⟨next.1, s.world, s.now⟩ next.2 n) =
      consult p d r agent task key (p.finishLoad d.memory s load) := by
  have hpos := d.retry.attempts_pos
  -- what is left once the window is there
  have loaded : ∀ (s : Scene W) (window : ConversationWindow) (n : Nat),
      2 * d.retry.attempts + 3 ≤ n →
      runFrom p none r ⟨{ d with metrics := d.metrics.start }, s.world, s.now⟩
          (.asking agent task key window.text s.now (.attempting 0)) n =
        consult p d r agent task key (s, window) := by
    intro s window n hn
    obtain ⟨k, rfl⟩ : ∃ k, n = k + 2 * (d.retry.attempts - 1) + 5 :=
      ⟨n - 2 * (d.retry.attempts - 1) - 5, by omega⟩
    exact runFrom_asking (d.retry.attempts - 1) _ 0 k (by simp only; omega)
  cases load with
  | reading => exact absurd rfl hload
  | loaded window => exact loaded s window n (by omega)
  | summarizing records skipped =>
    obtain ⟨k, rfl⟩ : ∃ k, n = k + 1 := ⟨n - 1, by omega⟩
    simp only [Stage.afterLoad]
    rw [runFrom_call (c := .summarize (Memory.joined records)) rfl]
    simp only [Ports.serve, Stage.resume, Stage.afterLoad, Ports.finishLoad]
    exact loaded ⟨_, _⟩ _ k (by omega)

/-- A load that has read its records is not still reading. -/
theorem afterRead_ne_reading (m : MemorySettings) (readable : List UInt8 → Option String)
    (result : Except StorageError (List (List UInt8))) :
    Loading.afterRead m readable result ≠ .reading := by
  cases result with
  | error e => simp [Loading.afterRead]
  | ok blobs =>
    simp only [Loading.afterRead, Loading.ofRecords]
    split
    · simp
    · split <;> simp

/-- The walk of a command that is let in. -/
theorem runFrom_lookup {agent : AgentSpec} {task : TaskSpec} (h : Hall W) (n : Nat)
    (hn : 2 * h.desk.retry.attempts + 6 ≤ n) :
    runFrom p none r h (.lookup agent task) n =
      enter p h.desk r agent task (p.fetchKey r.room ⟨h.world, h.now⟩) := by
  obtain ⟨k, rfl⟩ : ∃ k, n = k + 2 := ⟨n - 2, by omega⟩
  rw [runFrom_call (c := .lookupKey r.room) rfl]
  simp only [Ports.serve, Ports.fetchKey]
  rcases (p.lookupKey r.room h.world).2 with e | _ | key
  · exact runFrom_finished _ _ _
  · exact runFrom_finished _ _ _
  · simp only [Stage.resume, enter]
    rw [runFrom_call (c := .listRecords r.room h.desk.memory.maxRecords) rfl]
    simp only [Ports.serve, Stage.resume]
    exact runFrom_afterLoad (opened h.desk _ r) ⟨_, _⟩ _ (afterRead_ne_reading _ _ _) k
      (by simp only [opened]; omega)

/-- The checks at the front keep the retry policy. -/
theorem start_retry (d : Desk) (now : Nat) (r : Request) :
    (Stage.start d now r).1.retry = d.retry := by
  rw [start_eq]
  split
  · rfl
  · rfl
  · split <;> rfl

/-- The front of a command leaves it finished, let in or broken. -/
theorem start_stage (d : Desk) (now : Nat) (r : Request) :
    (∃ reply, (Stage.start d now r).2 = .finished reply) ∨
      (∃ agent task, (Stage.start d now r).2 = .lookup agent task) ∨
      (Stage.start d now r).2 = .broken := by
  have hlisted := Stage.ofCatalog_listed d r.command
  rw [start_eq]
  generalize Stage.ofCatalog d r.command = stage at hlisted ⊢
  split
  · exact .inr (.inr rfl)
  · exact .inl ⟨_, rfl⟩
  · split
    · exact .inl ⟨_, rfl⟩
    · cases hlisted with
      | noAgent => exact .inl ⟨_, rfl⟩
      | noTask => exact .inl ⟨_, rfl⟩
      | known => exact .inr (.inl ⟨_, _, rfl⟩)

/-- **A command is its phases one after another**, for every behaviour of the
ports. -/
theorem command_eq_serve (p : Ports W) (h : Hall W) (r : Request) :
    h.command p r none = h.serve p r := by
  have hretry := start_retry h.desk h.now r
  have hstage := start_stage h.desk h.now r
  simp only [command, serve, Option.map_none]
  rcases hs : Stage.start h.desk h.now r with ⟨d, stage⟩
  rw [hs] at hretry hstage
  simp only at hretry hstage
  rcases hstage with ⟨reply, rfl⟩ | ⟨agent, task, rfl⟩ | rfl
  · rfl
  · exact runFrom_lookup ⟨d, h.world, h.now⟩ _ (by simp only [callBound, ← hretry]; omega)
  · rfl

/-! ## Deadlines -/

/-- **A deadline that does not drop the command changes nothing.** -/
theorem runFrom_eq_of_replied {deadline : Option Nat} {reply : Reply} (n : Nat) :
    ∀ (h : Hall W) (stage : Stage),
      (runFrom p deadline r h stage n).2 = .replied reply →
      runFrom p deadline r h stage n = runFrom p none r h stage n := by
  induction n with
  | zero => intro h stage _; rfl
  | succ n ih =>
    intro h stage hr
    cases hc : stage.call? h.desk r with
    | none => cases stage <;> simp_all [runFrom]
    | some c =>
      rw [runFrom_call_deadline hc] at hr ⊢
      rw [runFrom_call hc]
      by_cases hpast : Clock.isPast deadline (Clock.wake h.now (p.serve h.world c).2.1) = true
      · simp [if_pos hpast] at hr
      · simp only [if_neg hpast] at hr ⊢
        exact ih _ _ hr

/-- A command that ends in a reply under a deadline is the one without. -/
theorem command_eq_of_replied {h : Hall W} {timeout : Option Nat} {reply : Reply}
    (hr : (h.command p r timeout).2 = .replied reply) : h.command p r timeout = h.serve p r := by
  rw [← command_eq_serve]
  exact runFrom_eq_of_replied _ _ _ hr

end Hall

/-! ## What a command can do -/

namespace Hall

variable {W : Type} {p : Ports W} {h : Hall W} {r : Request}

/-- A request that is let through to the room key. -/
structure LetIn (h : Hall W) (r : Request) (agent : AgentSpec) (task : TaskSpec) : Prop where
  allowed : (h.desk.limiter.allow h.now r.user).1 = .allowed
  missed : h.desk.cache.live? h.now (Desk.cacheKey r) = none
  knownAgent : h.desk.catalog.agent? r.command.agent = some agent
  knownTask : h.desk.catalog.task? r.command.task = some task

/-- **The courses of a command**, each with the hall and the outcome that it
ends in. -/
inductive Course (p : Ports W) (h : Hall W) (r : Request) : Hall W × Outcome → Prop
  /-- The rate window would close at an instant that cannot be represented. -/
  | overflow : (h.desk.limiter.allow h.now r.user).1 = .overflow →
      Course p h r (⟨h.desk.counted h.now r, h.world, h.now⟩, .broken)
  /-- The user's window is full. -/
  | limited : (h.desk.limiter.allow h.now r.user).1 = .denied →
      Course p h r (⟨h.desk.counted h.now r, h.world, h.now⟩,
        .replied Refusal.rateLimitExceeded.reply)
  /-- The cache has a live reply. -/
  | cached {text : String} : (h.desk.limiter.allow h.now r.user).1 = .allowed →
      h.desk.cache.live? h.now (Desk.cacheKey r) = some text →
      Course p h r (⟨h.desk.counted h.now r, h.world, h.now⟩, .replied ⟨text, .cache⟩)
  /-- The catalog does not know the agent or the task. -/
  | unknown {refusal : Refusal} : (h.desk.limiter.allow h.now r.user).1 = .allowed →
      h.desk.cache.live? h.now (Desk.cacheKey r) = none →
      (h.desk.catalog.agent? r.command.agent = none ∧
          refusal = .unknownAgent r.command.agent ∨
        h.desk.catalog.agent? r.command.agent ≠ none ∧
          h.desk.catalog.task? r.command.task = none ∧ refusal = .unknownTask r.command.task) →
      Course p h r (⟨h.desk.checked h.now r, h.world, h.now⟩, .replied refusal.reply)
  /-- The registry fails. -/
  | registryFailed {agent : AgentSpec} {task : TaskSpec} {s : Scene W} {e : StorageError} :
      LetIn h r agent task → p.fetchKey r.room ⟨h.world, h.now⟩ = (s, .error e) →
      Course p h r (⟨h.desk.checked h.now r, s.world, s.now⟩, .replied (Refusal.registry e).reply)
  /-- The room has no key. -/
  | unregistered {agent : AgentSpec} {task : TaskSpec} {s : Scene W} :
      LetIn h r agent task → p.fetchKey r.room ⟨h.world, h.now⟩ = (s, .ok none) →
      Course p h r (⟨h.desk.checked h.now r, s.world, s.now⟩,
        .replied Refusal.roomNotRegistered.reply)
  /-- The last attempt at the pipeline fails. -/
  | failed {agent : AgentSpec} {task : TaskSpec} {key : RoomKey} {s₁ s₂ s₃ : Scene W}
      {window : ConversationWindow} {e : PipelineError} :
      LetIn h r agent task → p.fetchKey r.room ⟨h.world, h.now⟩ = (s₁, .ok (some key)) →
      p.fetchWindow h.desk.memory r.room key s₁ = (s₂, window) →
      p.ask h.desk.retry.delay agent task window.text r.command.content
        (h.desk.retry.attempts - 1) s₂ = (s₃, .error e) →
      Course p h r
        (⟨h.desk.consulted h.now r s₁.now (h.desk.metrics.start.finish (s₃.now - s₂.now) true),
          s₃.world, s₃.now⟩, .replied (Refusal.pipeline e).reply)
  /-- The pipeline answers. -/
  | answered {agent : AgentSpec} {task : TaskSpec} {key : RoomKey} {s₁ s₂ s₃ s₄ : Scene W}
      {window : ConversationWindow} {text : String} :
      LetIn h r agent task → p.fetchKey r.room ⟨h.world, h.now⟩ = (s₁, .ok (some key)) →
      p.fetchWindow h.desk.memory r.room key s₁ = (s₂, window) →
      p.ask h.desk.retry.delay agent task window.text r.command.content
        (h.desk.retry.attempts - 1) s₂ = (s₃, .ok text) →
      p.keep r.room key (Memory.exchange r.command.content text) s₃ = s₄ →
      Course p h r
        (⟨(h.desk.consulted h.now r s₁.now
            (h.desk.metrics.start.finish (s₃.now - s₂.now) false)).recordTurn s₄.now r text,
          s₄.world, s₄.now⟩, .replied ⟨text, .pipeline⟩)

/-- **An answer of the pipeline ends one course alone**: the key, the window, an
attempt that succeeds, and the exchange filed. -/
theorem Course.of_pipeline {out : Hall W × Outcome} {text : String} (hc : Course p h r out)
    (hr : out.2 = .replied ⟨text, .pipeline⟩) :
    ∃ agent task key s₁ s₂ s₃ s₄ window, LetIn h r agent task ∧
      p.fetchKey r.room ⟨h.world, h.now⟩ = (s₁, .ok (some key)) ∧
      p.fetchWindow h.desk.memory r.room key s₁ = (s₂, window) ∧
      p.ask h.desk.retry.delay agent task window.text r.command.content
        (h.desk.retry.attempts - 1) s₂ = (s₃, .ok text) ∧
      p.keep r.room key (Memory.exchange r.command.content text) s₃ = s₄ ∧
      out.1 = ⟨(h.desk.consulted h.now r s₁.now
          (h.desk.metrics.start.finish (s₃.now - s₂.now) false)).recordTurn s₄.now r text,
        s₄.world, s₄.now⟩ := by
  cases hc with
  | answered hin hkey hwindow hask hkeep =>
    cases hr
    exact ⟨_, _, _, _, _, _, _, _, hin, hkey, hwindow, hask, hkeep, rfl⟩
  | unknown _ _ hwhy => rcases hwhy with ⟨-, rfl⟩ | ⟨-, -, rfl⟩ <;> cases hr
  | cached => cases hr
  | overflow => cases hr
  | limited => cases hr
  | registryFailed => cases hr
  | unregistered => cases hr
  | failed => cases hr

/-- A request that is let in takes one of the courses behind the room key. -/
theorem course_enter {agent : AgentSpec} {task : TaskSpec} (hin : LetIn h r agent task) :
    Course p h r
      (enter p (h.desk.checked h.now r) r agent task (p.fetchKey r.room ⟨h.world, h.now⟩)) := by
  rcases hkey : p.fetchKey r.room ⟨h.world, h.now⟩ with ⟨s₁, e | _ | key⟩
  · exact .registryFailed hin hkey
  · exact .unregistered hin hkey
  · rcases hwindow : p.fetchWindow h.desk.memory r.room key s₁ with ⟨s₂, window⟩
    change Course p h r (consult p (opened (h.desk.checked h.now r) s₁.now r) r agent task key
      (p.fetchWindow h.desk.memory r.room key s₁))
    rw [hwindow]
    change Course p h r (conclude p _ r key s₂.now
      (p.ask h.desk.retry.delay agent task window.text r.command.content
        (h.desk.retry.attempts - 1) s₂))
    rcases hask : p.ask h.desk.retry.delay agent task window.text r.command.content
      (h.desk.retry.attempts - 1) s₂ with ⟨s₃, e | text⟩
    · exact .failed hin hkey hwindow hask
    · exact .answered hin hkey hwindow hask rfl

/-- A request with a live reply gets it. -/
theorem serve_of_live {text : String} (hv : (h.desk.limiter.allow h.now r.user).1 = .allowed)
    (hlive : h.desk.cache.live? h.now (Desk.cacheKey r) = some text) :
    h.serve p r = (⟨h.desk.counted h.now r, h.world, h.now⟩, .replied ⟨text, .cache⟩) := by
  simp only [serve, start_eq, hv, hlive]

/-- A request whose agent or task is not known is refused. -/
theorem serve_of_refused {refusal : Refusal}
    (hv : (h.desk.limiter.allow h.now r.user).1 = .allowed)
    (hmissed : h.desk.cache.live? h.now (Desk.cacheKey r) = none)
    (hrefused : Stage.ofCatalog h.desk r.command = Stage.refused refusal) :
    h.serve p r = (⟨h.desk.checked h.now r, h.world, h.now⟩, .replied refusal.reply) := by
  simp only [serve, start_eq, hv, hmissed, hrefused, Stage.refused]

/-- A request that is let in waits for the room key first. -/
theorem start_of_letIn {agent : AgentSpec} {task : TaskSpec} (hin : LetIn h r agent task) :
    Stage.start h.desk h.now r = (h.desk.checked h.now r, .lookup agent task) := by
  simp only [start_eq, hin.allowed, hin.missed, Stage.ofCatalog, hin.knownAgent, hin.knownTask]

/-- A request that is let in goes on to the room key. -/
theorem serve_of_letIn {agent : AgentSpec} {task : TaskSpec} (hin : LetIn h r agent task) :
    h.serve p r =
      enter p (h.desk.checked h.now r) r agent task (p.fetchKey r.room ⟨h.world, h.now⟩) := by
  simp only [serve, start_of_letIn hin]

/-- **Every command takes one of its courses.** -/
theorem serve_course (p : Ports W) (h : Hall W) (r : Request) : Course p h r (h.serve p r) := by
  have hlisted := Stage.ofCatalog_listed h.desk r.command
  cases hv : (h.desk.limiter.allow h.now r.user).1 with
  | overflow => simpa only [serve, start_eq, hv] using .overflow hv
  | denied => simpa only [serve, start_eq, hv] using .limited hv
  | allowed =>
    cases hlive : h.desk.cache.live? h.now (Desk.cacheKey r) with
    | some text =>
      rw [serve_of_live hv hlive]
      exact .cached hv hlive
    | none =>
      generalize hstage : Stage.ofCatalog h.desk r.command = stage at hlisted
      cases hlisted with
      | noAgent hagent =>
        rw [serve_of_refused hv hlive hstage]
        exact .unknown hv hlive (.inl ⟨hagent, rfl⟩)
      | noTask hagent htask =>
        rw [serve_of_refused hv hlive hstage]
        exact .unknown hv hlive (.inr ⟨by simp [hagent], htask, rfl⟩)
      | known hagent htask =>
        have hin : LetIn h r _ _ := ⟨hv, hlive, hagent, htask⟩
        rw [serve_of_letIn hin]
        exact course_enter hin

/-- Whatever its course, a command is counted by the limiter once. -/
theorem Course.limiter {out : Hall W × Outcome} (hc : Course p h r out) :
    out.1.desk.limiter = (h.desk.limiter.allow h.now r.user).2 := by
  cases hc <;> rfl

/-- No course changes the catalog. -/
theorem Course.catalog {out : Hall W × Outcome} (hc : Course p h r out) :
    out.1.desk.catalog = h.desk.catalog := by
  cases hc <;> rfl

theorem command_course_none (p : Ports W) (h : Hall W) (r : Request) :
    Course p h r (h.command p r none) := by
  rw [command_eq_serve]
  exact serve_course p h r

/-- A command that ends in a reply under a deadline takes one of the courses. -/
theorem command_course {timeout : Option Nat} {reply : Reply}
    (hr : (h.command p r timeout).2 = .replied reply) :
    Course p h r (h.command p r timeout) := by
  rw [command_eq_of_replied hr]
  exact serve_course p h r

end Hall

end Colloquy
