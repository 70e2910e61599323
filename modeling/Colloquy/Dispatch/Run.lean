import Colloquy.Dispatch.Stage
/-!
# Running a command

One command runs from its start to its end while nothing else happens: each
call is served, the clock moves by its duration, and the command resumes. A
command with a deadline is dropped in the first wait that ends behind it.
-/

namespace Colloquy

/-- A desk with the world behind it, at an instant. -/
structure Hall (W : Type) where
  desk : Desk
  world : W
  now : Nat

/-- How a command ends. -/
inductive Outcome where
  | replied (reply : Reply)
  /-- The deadline came first. -/
  | dropped
  /-- The command came to an end without a reply. -/
  | broken
deriving DecidableEq, Repr

namespace Hall

variable {W : Type}

/-- Drops a command at an instant. -/
def drop (h : Hall W) (instant : Nat) (stage : Stage) : Hall W :=
  { h with desk := stage.abandon h.desk instant, now := instant }

/-- Runs a command on from a stage, through at most `bound` calls. -/
def runFrom (p : Ports W) (deadline : Option Nat) (r : Request) (h : Hall W) (stage : Stage) :
    Nat → Hall W × Outcome
  | 0 => (h, .broken)
  | bound + 1 =>
    match stage with
    | .finished reply => (h, .replied reply)
    | .broken => (h, .broken)
    | stage =>
      match stage.call? h.desk r with
      | none => (h, .broken)
      | some call =>
        let (world, takes, answer) := p.serve h.world call
        let h := { h with world := world }
        let until' := Clock.wake h.now takes
        if Clock.isPast deadline until' then
          (h.drop (deadline.getD until') stage, .dropped)
        else
          let (desk, world, stage) := stage.resume p h.desk h.world until' r answer
          runFrom p deadline r ⟨desk, world, until'⟩ stage bound

/-- More calls than any command makes with a number of attempts. -/
def callBound (attempts : Nat) : Nat := 2 * attempts + 8

/-- Runs a command, for some milliseconds at most when there is a timeout. -/
def command (p : Ports W) (h : Hall W) (r : Request) (timeout : Option Nat) : Hall W × Outcome :=
  let deadline := timeout.map (Clock.wake h.now)
  let (desk, stage) := Stage.start h.desk h.now r
  runFrom p deadline r { h with desk := desk } stage (callBound h.desk.retry.attempts)

/-- The request that a message is, when it is a command for a known agent. -/
def requestOf? (h : Hall W) (user room body : String) : Option Request := do
  let c ← ChatCommand.parse? body
  let _ ← h.desk.catalog.agent? c.agent
  some ⟨user, room, c⟩

/-- Runs a message, when it is a command for a known agent. -/
def message (p : Ports W) (h : Hall W) (user room body : String) (timeout : Option Nat) :
    Hall W × Option Outcome :=
  match h.requestOf? user room body with
  | none => (h, none)
  | some r =>
    let (h, outcome) := h.command p r timeout
    (h, some outcome)

/-- Loads the window of a room outside of any command. -/
def window (p : Ports W) (h : Hall W) (room : String) (key : RoomKey) :
    Hall W × ConversationWindow :=
  let m := h.desk.memory
  let (world, result) := p.listRecords room m.maxRecords h.world
  match Loading.afterRead m (p.readable key) result with
  | .loaded window => ({ h with world := world }, window)
  | .reading => ({ h with world := world }, .empty)
  | .summarizing records skipped =>
    let (world, takes, summary) := p.summarize (Memory.joined records) world
    ({ h with world := world, now := Clock.wake h.now takes },
      Loading.afterSummary m records skipped summary)

/-- Saves an exchange outside of any command. -/
def save (p : Ports W) (h : Hall W) (room : String) (key : RoomKey) (user agent : String) :
    Hall W :=
  let plaintext := Memory.exchange user agent
  let (world, sealed) := p.encrypt key (Text.Utf8.encode plaintext) h.world
  let record := Saving.recordOf plaintext sealed
  let (world, first) := p.appendRecord room record world
  match Saving.afterWrite record first with
  | .reconnecting record =>
    let (world, connected) := p.reconnect world
    match Saving.afterReconnect record connected with
    | .writingAgain record => { h with world := (p.appendRecord room record world).1 }
    | _ => { h with world := world }
  | _ => { h with world := world }

/-- Deletes the history of a room. -/
def forget (p : Ports W) (h : Hall W) (room : String) : Hall W × Except StorageError Nat :=
  let (world, result) := p.deleteRecords room h.world
  ({ h with world := world }, result)

/-- Lets time pass. -/
def advance (h : Hall W) (ms : Nat) : Hall W := { h with now := h.now + ms }

end Hall

end Colloquy
