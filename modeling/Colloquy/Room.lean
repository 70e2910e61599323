import Colloquy.Cipher.Base64
import Colloquy.Cipher.Gcm
import Colloquy.Json.Reader
import Colloquy.Json.Printer
import Colloquy.Moment
import Colloquy.Text.Blank
/-!
# Rooms, their keys and their cipher

A room's history is sealed under a key of 32 bytes. The key is kept as
base64 text, of which `RoomKey.decode` takes the one written form, with blanks
around it. A sealed record is a nonce of twelve bytes, the ciphertext and the
tag; `RoomCipher.decrypt` tells a record that is too short from one that does
not belong to the key.
-/

namespace Colloquy

/-- The key of a room. -/
structure RoomKey where
  bytes : List UInt8
  length_bytes : bytes.length = 32
deriving DecidableEq

/-- Why a key or a record is refused. -/
inductive CipherError where
  | encryptionFailed
  | decryptionFailed
  | ciphertextTooShort
  | invalidKey (reason : String)
deriving DecidableEq, Repr

/-- The wording of a cipher error. -/
def CipherError.message : CipherError → String
  | .encryptionFailed => "encryption failed"
  | .decryptionFailed => "decryption failed"
  | .ciphertextTooShort => "invalid ciphertext: too short"
  | .invalidKey reason => "invalid room key: " ++ reason

namespace RoomKey

/-- A key of exactly 32 bytes. -/
def ofBytes? (bytes : List UInt8) : Option RoomKey :=
  if h : bytes.length = 32 then some ⟨bytes, h⟩ else none

/-- A key of 32 equal bytes. -/
def uniform (b : UInt8) : RoomKey :=
  ⟨List.replicate 32 b, by simp⟩

/-- What a key shows of itself. -/
def shown (_ : RoomKey) : String :=
  "RoomKey(<redacted>)"

/-- The stored text of a key. -/
def encode (key : RoomKey) : String :=
  Base64.encode key.bytes

/-- The key of a stored text. -/
def decode (text : String) : Except CipherError RoomKey :=
  match Base64.decode (Text.Utf8.encode (Text.trim text)) with
  | .error fault => .error (.invalidKey fault.message)
  | .ok bytes =>
    match ofBytes? bytes with
    | some key => .ok key
    | none => .error (.invalidKey ("expected 32 bytes, got " ++ toString bytes.length))

end RoomKey

namespace RoomCipher

/-- The length of a nonce. -/
def nonceLength : Nat := 12

/-- The sealed form of a plaintext under a nonce. -/
def encrypt (key : RoomKey) (nonce plaintext : List UInt8) : List UInt8 :=
  nonce ++ Gcm.encrypt key.bytes nonce plaintext

/-- The plaintext of a sealed record. -/
def decrypt (key : RoomKey) (record : List UInt8) : Except CipherError (List UInt8) :=
  if record.length < nonceLength then .error .ciphertextTooShort
  else
    match Gcm.decrypt? key.bytes (record.take nonceLength) (record.drop nonceLength) with
    | some plaintext => .ok plaintext
    | none => .error .decryptionFailed

end RoomCipher

/-- A room as it is listed, without its key. -/
structure RoomInfo where
  id : String
  active : Bool
  createdAt : Moment
deriving DecidableEq, Repr

namespace RoomInfo

/-- The shape of a room's JSON form. -/
def shape : Shape :=
  .record [Shape.needs "id" .anyText, Shape.needs "active" .bool,
    Shape.needs "created_at" (.text fun s => (Moment.ofRelaxed? s).isSome)]

/-- The JSON form of a room. -/
def toJson (r : RoomInfo) : Json :=
  .object [("id", .text r.id), ("active", .bool r.active), ("created_at", .text r.createdAt.text)]

/-- The room of a value of the shape. -/
def ofJson? (j : Json) : Option RoomInfo := do
  let createdAt ← Moment.ofRelaxed? ((j.field "created_at").textOr "")
  some ⟨(j.field "id").textOr "", (j.field "active").isTrue, createdAt⟩

end RoomInfo

end Colloquy
