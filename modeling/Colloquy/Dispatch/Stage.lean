import Colloquy.Dispatch.Desk
import Colloquy.Dispatch.Ports
import Colloquy.Memory.Loading
import Colloquy.Memory.Saving
/-!
# The course of a command

A command is checked against the limiter, the cache and the catalog at once,
and then waits for one call after another: the room key, the history, perhaps
a summary, the attempts with their pauses, and the writes of the exchange.
`Stage` says which of these comes next and holds what is known so far.
`start` and `resume` are the steps between two waits; each of them is atomic.
`abandon` is what happens to the desk when a command is dropped in a wait.
-/

namespace Colloquy

/-- Where a command stands. -/
inductive Stage where
  /-- The room key is looked up for a known agent and task. -/
  | lookup (agent : AgentSpec) (task : TaskSpec)
  /-- The window is being loaded. -/
  | loading (agent : AgentSpec) (task : TaskSpec) (key : RoomKey) (load : Loading)
  /-- The pipeline is asked, since an instant. -/
  | asking (agent : AgentSpec) (task : TaskSpec) (key : RoomKey) (context : String) (since : Nat)
      (run : Retrying PipelineError String)
  /-- The answered exchange is being saved. -/
  | saving (text : String) (save : Saving)
  /-- The reply is there. -/
  | finished (reply : Reply)
  /-- The command came to an end without a reply. -/
  | broken

namespace Stage

variable {W : Type}

/-- The end of a command that is refused. -/
def refused (r : Refusal) : Stage := .finished r.reply

/-- The stage of a catalog look-up. -/
def ofCatalog (d : Desk) (c : ChatCommand) : Stage :=
  match d.catalog.agent? c.agent with
  | none => refused (.unknownAgent c.agent)
  | some agent =>
    match d.catalog.task? c.task with
    | none => refused (.unknownTask c.task)
    | some task => .lookup agent task

/-- A command's first step: the limiter, the cache and the catalog. -/
def start (d : Desk) (now : Nat) (r : Request) : Desk × Stage :=
  match d.limiter.allow now r.user with
  | (.overflow, limiter) => ({ d with limiter := limiter }, .broken)
  | (.denied, limiter) => ({ d with limiter := limiter }, refused .rateLimitExceeded)
  | (.allowed, limiter) =>
    let d := { d with limiter := limiter }
    match d.cache.get now (Desk.cacheKey r) with
    | (some text, cache) => ({ d with cache := cache }, .finished ⟨text, .cache⟩)
    | (none, cache) => ({ d with cache := cache }, ofCatalog d r.command)

/-- The call that a command waits for. -/
def call? (d : Desk) (r : Request) : Stage → Option Call
  | .lookup _ _ => some (.lookupKey r.room)
  | .loading _ _ _ .reading => some (.listRecords r.room d.memory.maxRecords)
  | .loading _ _ _ (.summarizing records _) => some (.summarize (Memory.joined records))
  | .asking agent task _ context _ (.attempting _) =>
    some (.invoke agent task context r.command.content)
  | .asking _ _ _ _ _ (.pausing _) => some (.pause d.retry.delay)
  | .saving _ (.writing record) => some (.appendRecord r.room record)
  | .saving _ (.reconnecting _) => some .reconnect
  | .saving _ (.writingAgain record) => some (.appendRecord r.room record)
  | _ => none

/-- The stage behind a load: the pipeline is asked when the window is there. -/
def afterLoad (d : Desk) (now : Nat) (agent : AgentSpec) (task : TaskSpec) (key : RoomKey) :
    Loading → Desk × Stage
  | .loaded window =>
    ({ d with metrics := d.metrics.start },
      .asking agent task key window.text now (.attempting 0))
  | load => (d, .loading agent task key load)

/-- The stage behind an attempt. A settled run is timed, and its text is
sealed to be saved. -/
def afterAttempt (p : Ports W) (d : Desk) (w : W) (now : Nat) (r : Request) (agent : AgentSpec)
    (task : TaskSpec) (key : RoomKey) (context : String) (since : Nat) :
    Retrying PipelineError String → Desk × W × Stage
  | .settled (.error e) =>
    ({ d with metrics := d.metrics.finish (now - since) true }, w, refused (.pipeline e))
  | .settled (.ok text) =>
    let plaintext := Memory.exchange r.command.content text
    let (w, sealed) := p.encrypt key (Text.Utf8.encode plaintext) w
    ({ d with metrics := d.metrics.finish (now - since) false }, w,
      .saving text (.writing (Saving.recordOf plaintext sealed)))
  | run => (d, w, .asking agent task key context since run)

/-- The stage behind a write or a reconnection. -/
def afterSave (d : Desk) (now : Nat) (r : Request) (text : String) : Saving → Desk × Stage
  | .settled _ => (d.recordTurn now r text, .finished ⟨text, .pipeline⟩)
  | save => (d, .saving text save)

/-- A command's step when the call that it waits for has been answered. -/
def resume (p : Ports W) (d : Desk) (w : W) (now : Nat) (r : Request) :
    Stage → Answer → Desk × W × Stage
  | .lookup _ _, .key (.error e) => (d, w, refused (.registry e))
  | .lookup _ _, .key (.ok none) => (d, w, refused .roomNotRegistered)
  | .lookup agent task, .key (.ok (some key)) =>
    let (_, sessions) := d.sessions.getOrCreate now r.user r.room
    ({ d with sessions := sessions }, w, .loading agent task key .reading)
  | .loading agent task key .reading, .records result =>
    let (d, stage) :=
      afterLoad d now agent task key (Loading.afterRead d.memory (p.readable key) result)
    (d, w, stage)
  | .loading agent task key (.summarizing records skipped), .summary result =>
    let (d, stage) :=
      afterLoad d now agent task key (.loaded (Loading.afterSummary d.memory records skipped result))
    (d, w, stage)
  | .asking agent task key context since (.attempting made), .output result =>
    afterAttempt p d w now r agent task key context since
      (d.retry.afterAttempt made (result.bind PipelineOutput.result))
  | .asking agent task key context since (.pausing made), .waited =>
    (d, w, .asking agent task key context since (.attempting made))
  | .saving text (.writing record), .written result =>
    let (d, stage) := afterSave d now r text (Saving.afterWrite record result)
    (d, w, stage)
  | .saving text (.reconnecting record), .written result =>
    let (d, stage) := afterSave d now r text (Saving.afterReconnect record result)
    (d, w, stage)
  | .saving text (.writingAgain _), .written result =>
    let (d, stage) := afterSave d now r text (Saving.afterSecondWrite result)
    (d, w, stage)
  | stage, _ => (d, w, stage)

/-- The desk when a command is dropped: a pipeline that was being asked is
timed up to then. -/
def abandon (d : Desk) (now : Nat) : Stage → Desk
  | .asking _ _ _ _ since _ => { d with metrics := d.metrics.finish (now - since) false }
  | _ => d

end Stage

end Colloquy
