import Colloquy.Json.Printer
import Colloquy.Model.Completion
import Colloquy.Model.Request
/-!
# A scripted model server

A server that answers from a script and keeps the requests it got. Behind the
script it numbers its replies.
-/

namespace Colloquy

/-- An answer in a script. -/
inductive ScriptedAnswer where
  /-- A completion with a choice for each content. -/
  | choices (contents : List (Option String))
  /-- A refusal with the server's error. -/
  | refusal (status : Nat) (error : Json)
  | raw (status : Nat) (body : String)

/-- A server with the answers to come and the requests so far. -/
structure ScriptedServer where
  script : List ScriptedAnswer := []
  asked : Nat := 0
  /-- The requests since they were last taken. -/
  requests : List ModelRequest := []

namespace ScriptedServer

/-- A completion whose choices have some contents. -/
def completion (model : Json) (contents : List (Option String)) : Json :=
  let choice (index : Nat) (content : Option String) : Json :=
    .object [("index", .nat index),
      ("message", .object [("role", .text "assistant"), ("content", .ofOption .text content)]),
      ("finish_reason", .text "stop"), ("logprobs", .null)]
  .object [("id", .text "chatcmpl"), ("object", .text "chat.completion"), ("created", .nat 0),
    ("model", model), ("choices", .list (contents.mapIdx choice))]

/-- The response of an answer. -/
def respond (request : ModelRequest) : ScriptedAnswer → ModelResponse
  | .choices contents =>
    .answered 200 (Text.Utf8.encode (completion (request.body.field "model") contents).compact)
  | .refusal status error =>
    .answered status (Text.Utf8.encode (Json.object [("error", error)]).compact)
  | .raw status body => .answered status (Text.Utf8.encode body)

/-- Answers a request at once. -/
def send (request : ModelRequest) (s : ScriptedServer) : ScriptedServer × Nat × ModelResponse :=
  let count := s.asked + 1
  let (answer, script) := match s.script with
    | [] => (.choices [some ("reply " ++ toString count)], [])
    | a :: rest => (a, rest)
  (⟨script, count, s.requests ++ [request]⟩, 0, respond request answer)

end ScriptedServer

end Colloquy
