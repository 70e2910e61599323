import Colloquy.Model.Completion
import Colloquy.Model.Request
import Colloquy.Service.Wire
/-!
# The way to a model server

Where a request goes: the host and port of its address, and the message that
is sent there.
-/

namespace Colloquy

/-- The parts of an address. -/
structure ModelAddress where
  host : String
  port : Nat
  target : String
deriving DecidableEq, Repr

namespace ModelAddress

/-- The parts of an address without encryption. -/
def ofUrl? (url : String) : Option ModelAddress := do
  let rest ← Text.afterPrefix? "http://".toList url.toList
  let authority := rest.takeWhile (· ≠ '/')
  let target := String.ofList (rest.dropWhile (· ≠ '/'))
  let host := String.ofList (authority.takeWhile (· ≠ ':'))
  match authority.dropWhile (· ≠ ':') with
  | [] => some ⟨host, 80, target⟩
  | _ :: digits => (String.ofList digits).toNat?.map fun port => ⟨host, port, target⟩

end ModelAddress

/-- The message of a request. -/
def ModelRequest.message (r : ModelRequest) (a : ModelAddress) : Service.Message :=
  (Service.Message.mk ("POST " ++ a.target ++ " HTTP/1.1")
    [("host", a.host ++ ":" ++ toString a.port), ("authorization", r.authorization),
      ("content-type", "application/json")]
    (Text.Utf8.encode r.body.compact)).sealed

/-- What is said of a server that cannot be reached. -/
def ModelRequest.unreachable (r : ModelRequest) : ModelResponse :=
  .unreachable ("http error: error sending request for url (" ++ r.url ++ ")")

end Colloquy
