import Colloquy.Command
import Colloquy.Json.Reader
import Colloquy.Service.Envelope
import Colloquy.Service.MediaType
/-!
# Bodies of requests

A body has to be announced as JSON, keep to a length, be JSON, and have the
shape of what is posted; the four failures have a status each. Names in it must
not be blank.
-/

namespace Colloquy.Service

/-- A message for a room. -/
structure PostedMessage where
  user : String
  body : String
deriving DecidableEq, Repr

/-- A command that is already taken apart. -/
structure PostedCommand where
  user : String
  room : String
  agent : String
  task : Option String
  content : String
deriving DecidableEq, Repr

/-- A room to register. -/
structure PostedRoom where
  room : String
deriving DecidableEq, Repr

open Shape (needs allows)

namespace PostedMessage

/-- The shape of a message. -/
def shape : Shape :=
  .record [needs "user_id" .anyText, needs "body" .anyText]

/-- The message of a value of the shape. -/
def ofJson (j : Json) : PostedMessage :=
  ⟨(j.field "user_id").textOr "", (j.field "body").textOr ""⟩

/-- The JSON form of a message. -/
def toJson (m : PostedMessage) : Json :=
  .object [("user_id", .text m.user), ("body", .text m.body)]

end PostedMessage

namespace PostedCommand

/-- The shape of a command. -/
def shape : Shape :=
  .record [needs "user_id" .anyText, needs "room_id" .anyText, needs "agent" .anyText,
    allows "task" (.optional .anyText), needs "content" .anyText]

/-- The command of a value of the shape. -/
def ofJson (j : Json) : PostedCommand where
  user := (j.field "user_id").textOr ""
  room := (j.field "room_id").textOr ""
  agent := (j.field "agent").textOr ""
  task := (j.field "task").text?
  content := (j.field "content").textOr ""

/-- The JSON form of a command. -/
def toJson (c : PostedCommand) : Json :=
  .object [("user_id", .text c.user), ("room_id", .text c.room), ("agent", .text c.agent),
    ("task", .ofOption .text c.task), ("content", .text c.content)]

/-- The command for the desk. A blank task is the default one. -/
def command (c : PostedCommand) : ChatCommand :=
  let task := Text.trim (c.task.getD "")
  ⟨c.agent, if task = "" then ChatCommand.defaultTask else task, c.content⟩

end PostedCommand

namespace PostedRoom

/-- The shape of a room to register. -/
def shape : Shape := .record [needs "room_id" .anyText]

/-- The room of a value of the shape. -/
def ofJson (j : Json) : PostedRoom := ⟨(j.field "room_id").textOr ""⟩

end PostedRoom

/-- Refuses a blank field. -/
def requireField (name value : String) : Except Fault Unit :=
  if Text.isBlankText value then .error (.invalid (name ++ " must not be empty")) else .ok ()

/-- The characters of the longest part, of some octets at most, that is text. -/
def textBefore (body : List UInt8) : Nat → List Char
  | 0 => []
  | n + 1 => (Text.Utf8.decodeChars (body.take (n + 1))).getD (textBefore body n)

/-- The characters of a body. A character that JSON refuses everywhere stands
for whatever follows the first octet that is no text. -/
def bodyChars (body : List UInt8) : List Char :=
  match Text.Utf8.decodeChars body with
  | some s => s
  | none => textBefore body body.length ++ [Char.ofNat 0]

/-- The most octets that a body may have. -/
def bodyLimit : Nat := 2097152

/-- What is posted in a request, or the response to a body that is refused. -/
def readBody {α : Type} (shape : Shape) (ofJson : Json → α) (r : HttpRequest) :
    Except HttpResponse α :=
  if !(r.header? "content-type").any MediaType.isJson then
    .error (.plain 415 "Expected request with \x60Content-Type: application/json\x60")
  else if bodyLimit < r.body.length then
    .error (.plain 413 "Failed to buffer the request body: length limit exceeded")
  else
    match Json.read shape (bodyChars r.body) with
    | .ok j => .ok (ofJson j)
    | .error .malformed => .error (.plain 400 "Failed to parse the request body as JSON")
    | .error .mismatch =>
      .error (.plain 422 "Failed to deserialize the JSON body into the target type")

end Colloquy.Service
