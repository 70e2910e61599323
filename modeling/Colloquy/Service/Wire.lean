import Colloquy.Service.Exchange
import Colloquy.Text.Blank
import Colloquy.Text.Hex
/-!
# Messages on the wire

A message is a first line, headers, an empty line and a body, whose length its
headers tell. `Message.read?` takes a message from the octets that have
arrived so far, and has nothing to say before the message is complete.
-/

namespace Colloquy.Service

/-- A request or response as it travels. -/
structure Message where
  first : String
  headers : List (String × String)
  body : List UInt8

namespace Message

/-- Octets up to an empty line, and those behind it. -/
def splitHead? : List UInt8 → Option (List UInt8 × List UInt8)
  | 13 :: 10 :: 13 :: 10 :: rest => some ([], rest)
  | b :: rest => (splitHead? rest).map fun (head, body) => (b :: head, body)
  | [] => none

/-- Octets as characters of the same numbers. -/
def latin (bytes : List UInt8) : List Char :=
  bytes.map fun b => Char.ofNat b.toNat

/-- The lines of a head. -/
def headLines (head : List UInt8) : List String :=
  (Text.splitOnChar '\n' (latin head)).map fun l =>
    String.ofList (if l.getLast? = some '\r' then l.dropLast else l)

/-- The header on a line. -/
def header? (line : String) : Option (String × String) :=
  (Text.cutAt? [':'] line.toList).map fun (name, value) =>
    (String.ofList name, Text.trim (String.ofList value))

/-- The value of a header, whose name may be in either case. -/
def value? (headers : List (String × String)) (name : String) : Option String :=
  (headers.find? fun h => lowerCase h.1 = name).map (·.2)

/-- The number of some hexadecimal digits. -/
def hexNumber (digits : List Char) : Nat :=
  (digits.filterMap Text.Hex.digitValue?).foldl (fun n d => n * 16 + d) 0

/-- The octets of a body in chunks, each behind its length, once the last
chunk, which is empty, is there. -/
def unchunk? : Nat → List UInt8 → Option (List UInt8)
  | 0, _ => none
  | fuel + 1, s =>
    let size := s.takeWhile (· ≠ 13)
    let count := hexNumber ((latin size).takeWhile (· ≠ ';'))
    let rest := s.drop (size.length + 2)
    if s.length < size.length + 2 then none
    else if count = 0 then some []
    else if rest.length < count + 2 then none
    else (unchunk? fuel (rest.drop (count + 2))).map (rest.take count ++ ·)

/-- The body behind a head. Without a length it is empty, or it ends where the
message does. -/
def body? (headers : List (String × String)) (toEnd isClosed : Bool) (s : List UInt8) :
    Option (List UInt8) :=
  match value? headers "transfer-encoding", (value? headers "content-length").bind String.toNat? with
  | some _, _ => unchunk? (s.length + 1) s
  | none, some length => if s.length < length then none else some (s.take length)
  | none, none => if !toEnd then some [] else if isClosed then some s else none

/-- The message that has arrived, if it is complete. -/
def read? (toEnd isClosed : Bool) (bytes : List UInt8) : Option Message := do
  let (head, rest) ← splitHead? bytes
  let lines := headLines head
  let headers := (lines.drop 1).filterMap header?
  let body ← body? headers toEnd isClosed rest
  some ⟨lines.headD "", headers, body⟩

/-- The octets of a message. -/
def encode (m : Message) : List UInt8 :=
  Text.Utf8.encode (m.first ++ "\r\n" ++
    String.join (m.headers.map fun (name, value) => name ++ ": " ++ value ++ "\r\n") ++ "\r\n") ++
    m.body

/-- The message with the length of its body, and the last one on its
connection. -/
def sealed (m : Message) : Message :=
  { m with headers := m.headers ++
    [("content-length", toString m.body.length), ("connection", "close")] }

/-- The request that a message is. -/
def request? (m : Message) : Option HttpRequest :=
  match (Text.splitOnChar ' ' m.first.toList).map String.ofList with
  | [method, target, _] => some ⟨method, target, m.headers, m.body⟩
  | _ => none

/-- The status that the first line of a response tells. -/
def status? (m : Message) : Option Nat :=
  match (Text.splitOnChar ' ' m.first.toList).map String.ofList with
  | _ :: status :: _ => status.toNat?
  | _ => none

/-- What a status is called. -/
def reason (status : Nat) : String :=
  match status with
  | 200 => "OK"
  | 400 => "Bad Request"
  | 404 => "Not Found"
  | 405 => "Method Not Allowed"
  | 415 => "Unsupported Media Type"
  | 422 => "Unprocessable Entity"
  | _ => "Internal Server Error"

/-- A response as it travels. -/
def ofResponse (r : HttpResponse) : Message :=
  (Message.mk ("HTTP/1.1 " ++ toString r.status ++ " " ++ reason r.status) r.headers
    (Text.Utf8.encode r.body)).sealed

end Message

end Colloquy.Service
