import Colloquy.Memory.Window
import Colloquy.Room
import Colloquy.Storage
/-!
# Saving an exchange

An exchange is sealed once and written. When the write fails the store is
reconnected and the same bytes are written once more; when that fails too the
exchange is dropped. `Saving` says which of the three waits comes next.
-/

namespace Colloquy

/-- Where a save stands. -/
inductive Saving where
  /-- The first write is under way. -/
  | writing (record : List UInt8)
  /-- The store is being reconnected after a failed write. -/
  | reconnecting (record : List UInt8)
  /-- The second write is under way. -/
  | writingAgain (record : List UInt8)
  /-- The save is over, and the record is stored or not. -/
  | settled (stored : Bool)

namespace Saving

/-- What stands before an exchange that could not be sealed. -/
def fallbackTag : String := "ERROR_ENCRYPTING: "

/-- The bytes stored for an exchange: its sealed form, or its marked plain
text when sealing failed. -/
def recordOf (plaintext : String) : Except CipherError (List UInt8) → List UInt8
  | .ok record => record
  | .error _ => Text.Utf8.encode (fallbackTag ++ plaintext)

/-- Where a save stands after its first write. -/
def afterWrite (record : List UInt8) : Except StorageError Unit → Saving
  | .ok _ => .settled true
  | .error _ => .reconnecting record

/-- Where a save stands after the reconnection. -/
def afterReconnect (record : List UInt8) : Except StorageError Unit → Saving
  | .ok _ => .writingAgain record
  | .error _ => .settled false

/-- Where a save stands after its second write. -/
def afterSecondWrite : Except StorageError Unit → Saving
  | .ok _ => .settled true
  | .error _ => .settled false

end Saving

end Colloquy
