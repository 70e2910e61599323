import Colloquy.Database.Records
import Colloquy.Database.Rooms
import Colloquy.Dispatch.Run
import Colloquy.Model.Completion
import Colloquy.Model.Request
/-!
# The site

The world that the program really runs in: a database, a model server, and a
source of random octets, of which each draw is used once. `Site.ports` lets
commands work on it.
-/

namespace Colloquy

/-- The changing part of the world; `S` is the state of the model server. -/
structure Site (S : Type) where
  database : Database
  server : S
  /-- How many times random octets have been drawn. -/
  draws : Nat := 0

/-- The fixed part of the world. -/
structure Equipment (S : Type) where
  access : ModelAccess
  /-- Sends a request to the server, which takes some milliseconds. -/
  send : ModelRequest → S → S × Nat × ModelResponse
  /-- The octet at a position of a draw. -/
  random : Nat → Nat → UInt8
  /-- Milliseconds from 1970-01-01 to the start of the clock. -/
  startedAt : Nat := 0

namespace Equipment

variable {S : Type}

/-- The first octets of a draw. -/
def octets (e : Equipment S) (draw count : Nat) : List UInt8 :=
  (List.range count).map (e.random draw)

/-- A room key from a draw. -/
def key (e : Equipment S) (draw : Nat) : RoomKey :=
  ⟨e.octets draw 32, by simp [octets]⟩

/-- The moment of an instant. -/
def moment (e : Equipment S) (now : Nat) : Moment :=
  Moment.ofUnix (e.startedAt + now)

end Equipment

namespace Site

variable {S : Type}

/-- One draw more. -/
def draw (w : Site S) : Site S := { w with draws := w.draws + 1 }

/-- A question to the database. -/
def query {α : Type} (f : Database → Except StorageError α) (w : Site S) :
    Site S × Except StorageError α :=
  (w, f w.database)

/-- A change of the database. -/
def change {α : Type} (f : Database → Database × Except StorageError α) (w : Site S) :
    Site S × Except StorageError α :=
  let (database, r) := f w.database
  ({ w with database := database }, r)

/-- Seals a plaintext under a nonce of its own. -/
def encrypt (e : Equipment S) (key : RoomKey) (plaintext : List UInt8) (w : Site S) :
    Site S × Except CipherError (List UInt8) :=
  (w.draw, .ok (RoomCipher.encrypt key (e.octets w.draws RoomCipher.nonceLength) plaintext))

/-- Sends a request to the model server and reads the answer. -/
def ask {α : Type} (e : Equipment S) (request : ModelRequest)
    (read : ModelResponse → Except PipelineError α) (w : Site S) :
    Site S × Nat × Except PipelineError α :=
  let (server, takes, response) := e.send request w.server
  ({ w with server := server }, takes, read response)

/-- The uses of a site. -/
def ports (e : Equipment S) : Ports (Site S) where
  lookupKey room := query (Database.lookupKey room)
  listRecords room limit := query (Database.listRecords room limit)
  appendRecord room record := change (Database.appendRecord room record)
  deleteRecords room := change (Database.deleteRecords room)
  reconnect := query Database.reconnect
  encrypt := encrypt e
  decrypt := RoomCipher.decrypt
  summarize history := ask e (e.access.summaryRequest history) Completion.summary
  invoke agent task context input :=
    ask e (e.access.agentRequest agent task context input) Completion.output

/-- Registers a room with a fresh key. -/
def registerRoom (e : Equipment S) (now : Nat) (room : String) (w : Site S) :
    Site S × Except StorageError Bool :=
  change (Database.registerRoom room (e.key w.draws) (e.moment now)) w.draw

end Site

end Colloquy
