import Colloquy.Catalog.Spec
import Colloquy.Pipeline
import Colloquy.Room
import Colloquy.Storage
/-!
# What the desk depends on

A command needs room keys, stored records, a cipher, a summarizer and a
pipeline. `Ports W` offers them over a world `W`, which is whatever they keep
between two uses. `Call` is one use that a command waits for and `Answer` what
comes back; `Ports.serve` answers a call and says how long that takes.
-/

namespace Colloquy

/-- The uses of a world. -/
structure Ports (W : Type) where
  /-- The key of an active room. -/
  lookupKey : String → W → W × Except StorageError (Option RoomKey)
  /-- The latest records of a room, the oldest first. -/
  listRecords : String → Nat → W → W × Except StorageError (List (List UInt8))
  /-- Stores a record behind those of a room. -/
  appendRecord : String → List UInt8 → W → W × Except StorageError Unit
  /-- Deletes the records of a room and counts them. -/
  deleteRecords : String → W → W × Except StorageError Nat
  /-- Opens the store anew. -/
  reconnect : W → W × Except StorageError Unit
  /-- Seals a plaintext. -/
  encrypt : RoomKey → List UInt8 → W → W × Except CipherError (List UInt8)
  /-- Opens a record. -/
  decrypt : RoomKey → List UInt8 → Except CipherError (List UInt8)
  /-- Summarizes a history, in some milliseconds. -/
  summarize : String → W → W × Nat × Except PipelineError String
  /-- Runs an agent on a task with a context and the user's words, in some
  milliseconds. -/
  invoke : AgentSpec → TaskSpec → String → String → W → W × Nat × Except PipelineError PipelineOutput

/-- One use of a world that a command waits for. -/
inductive Call where
  | lookupKey (room : String)
  | listRecords (room : String) (limit : Nat)
  | summarize (history : String)
  | invoke (agent : AgentSpec) (task : TaskSpec) (context input : String)
  | pause (ms : Nat)
  | appendRecord (room : String) (record : List UInt8)
  | reconnect

/-- What comes back from a call. -/
inductive Answer where
  | key (result : Except StorageError (Option RoomKey))
  | records (result : Except StorageError (List (List UInt8)))
  | summary (result : Except PipelineError String)
  | output (result : Except PipelineError PipelineOutput)
  | written (result : Except StorageError Unit)
  | waited

namespace Ports

variable {W : Type}

/-- Answers a call: the world after it, its duration and what comes back. -/
def serve (p : Ports W) (w : W) : Call → W × Nat × Answer
  | .lookupKey room =>
    let (w, r) := p.lookupKey room w
    (w, 0, .key r)
  | .listRecords room limit =>
    let (w, r) := p.listRecords room limit w
    (w, 0, .records r)
  | .summarize history =>
    let (w, ms, r) := p.summarize history w
    (w, ms, .summary r)
  | .invoke agent task context input =>
    let (w, ms, r) := p.invoke agent task context input w
    (w, ms, .output r)
  | .pause ms => (w, ms, .waited)
  | .appendRecord room record =>
    let (w, r) := p.appendRecord room record w
    (w, 0, .written r)
  | .reconnect =>
    let (w, r) := p.reconnect w
    (w, 0, .written r)

/-- The text of a stored record that opens under a key and is UTF-8. -/
def readable (p : Ports W) (key : RoomKey) (record : List UInt8) : Option String :=
  match p.decrypt key record with
  | .ok plaintext => Text.Utf8.decode? plaintext
  | .error _ => none

end Ports

end Colloquy
