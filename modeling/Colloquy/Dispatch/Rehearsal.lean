import Colloquy.Dispatch.Run
/-!
# A rehearsed world

Ports that live in memory and do as they are told: rooms with their keys and
records, a pipeline and a summarizer with scripted results, failures on
demand, and a record of every use. The cipher marks a record with the first
byte of the key and combines each byte with it, so that another key is
noticed; `Rehearsal.ports true` puts the real cipher in its place.
-/

namespace Colloquy

/-- The parts of the world that fail. -/
structure Failures where
  /-- One entry for each write to come; `none` lets it succeed. -/
  appends : List (Option StorageError) := []
  reads : Option StorageError := none
  reconnect : Option StorageError := none
  deletes : Option StorageError := none
  registry : Option StorageError := none
  encrypt : Bool := false

/-- A scripted result of the pipeline, after some milliseconds. -/
structure ScriptedOutput where
  result : Except PipelineError PipelineOutput
  takes : Nat

/-- A run of the pipeline as it was asked for. -/
structure Invocation where
  agent : String
  task : String
  context : String
  input : String
deriving DecidableEq, Repr

/-- A world in memory. -/
structure Rehearsal where
  keys : Table String RoomKey := .empty
  records : Table String (List (List UInt8)) := .empty
  failures : Failures := {}
  /-- The answer of the summarizer, after some milliseconds. -/
  summary : Except PipelineError String := .ok "summary"
  summaryTakes : Nat := 0
  script : List ScriptedOutput := []
  invocations : List Invocation := []
  summarized : List String := []
  lookups : Nat := 0
  appendAttempts : Nat := 0
  reconnects : Nat := 0
  /-- Counts the sealed records, for a nonce of their own. -/
  sealed : Nat := 0

namespace Rehearsal

/-- The records of a room. -/
def recordsOf (w : Rehearsal) (room : String) : List (List UInt8) :=
  (w.records.get? room).getD []

/-- Fails, or gives a value. -/
def orFail {α : Type} (failure : Option StorageError) (value : α) : Except StorageError α :=
  match failure with
  | some e => .error e
  | none => .ok value

/-- A room's key, and a look-up counted. -/
def lookupKey (room : String) (w : Rehearsal) : Rehearsal × Except StorageError (Option RoomKey) :=
  ({ w with lookups := w.lookups + 1 }, orFail w.failures.registry (w.keys.get? room))

/-- The last records of a room. -/
def listRecords (room : String) (limit : Nat) (w : Rehearsal) :
    Rehearsal × Except StorageError (List (List UInt8)) :=
  (w, orFail w.failures.reads (Memory.lastOf limit (w.recordsOf room)))

/-- Puts a record behind those of a room. -/
def push (w : Rehearsal) (room : String) (record : List UInt8) : Rehearsal :=
  { w with records := w.records.put room (w.recordsOf room ++ [record]) }

/-- A write, which uses up one entry of the scripted failures. -/
def appendRecord (room : String) (record : List UInt8) (w : Rehearsal) :
    Rehearsal × Except StorageError Unit :=
  let w := { w with appendAttempts := w.appendAttempts + 1 }
  match w.failures.appends with
  | some e :: rest => ({ w with failures := { w.failures with appends := rest } }, .error e)
  | none :: rest =>
    (push { w with failures := { w.failures with appends := rest } } room record, .ok ())
  | [] => (w.push room record, .ok ())

/-- Deletes the records of a room. -/
def deleteRecords (room : String) (w : Rehearsal) : Rehearsal × Except StorageError Nat :=
  match w.failures.deletes with
  | some e => (w, .error e)
  | none => ({ w with records := w.records.erase room }, .ok (w.recordsOf room).length)

/-- A reconnection, which is counted. -/
def reconnect (w : Rehearsal) : Rehearsal × Except StorageError Unit :=
  ({ w with reconnects := w.reconnects + 1 }, orFail w.failures.reconnect ())

/-- The first byte of a key. -/
def mark (key : RoomKey) : UInt8 := key.bytes.headD 0

/-- A record behind the mark of its key. -/
def markedEncrypt (key : RoomKey) (plaintext : List UInt8) : List UInt8 :=
  mark key :: plaintext.map (· ^^^ mark key)

/-- The plaintext of a marked record. -/
def markedDecrypt (key : RoomKey) : List UInt8 → Except CipherError (List UInt8)
  | [] => .error .ciphertextTooShort
  | tag :: body =>
    if tag = mark key then .ok (body.map (· ^^^ mark key)) else .error .decryptionFailed

/-- The nonce of a count. -/
def nonceOf (n : Nat) : List UInt8 := Octets.ofNumber RoomCipher.nonceLength n

/-- Seals a plaintext with the marked or the real cipher. -/
def encrypt (real : Bool) (key : RoomKey) (plaintext : List UInt8) (w : Rehearsal) :
    Rehearsal × Except CipherError (List UInt8) :=
  if w.failures.encrypt then (w, .error .encryptionFailed)
  else if real then
    ({ w with sealed := w.sealed + 1 },
      .ok (RoomCipher.encrypt key (nonceOf w.sealed) plaintext))
  else (w, .ok (markedEncrypt key plaintext))

/-- The scripted summary, with the history noted. -/
def summarize (history : String) (w : Rehearsal) :
    Rehearsal × Nat × Except PipelineError String :=
  ({ w with summarized := w.summarized ++ [history] }, w.summaryTakes, w.summary)

/-- The next scripted output; behind the script, an echo of the input. -/
def invoke (agent : AgentSpec) (task : TaskSpec) (context input : String) (w : Rehearsal) :
    Rehearsal × Nat × Except PipelineError PipelineOutput :=
  let w := { w with invocations := w.invocations ++ [Invocation.mk agent.name task.name context input] }
  match w.script with
  | [] => (w, 0, .ok (.answer (agent.name ++ ": " ++ input)))
  | s :: rest => ({ w with script := rest }, s.takes, s.result)

/-- The ports of a rehearsed world. -/
def ports (realCipher : Bool) : Ports Rehearsal where
  lookupKey := lookupKey
  listRecords := listRecords
  appendRecord := appendRecord
  deleteRecords := deleteRecords
  reconnect := reconnect
  encrypt := encrypt realCipher
  decrypt := if realCipher then RoomCipher.decrypt else markedDecrypt
  summarize := summarize
  invoke := invoke

end Rehearsal

end Colloquy
