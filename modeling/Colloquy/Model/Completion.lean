import Colloquy.Json.Reader
import Colloquy.Pipeline
import Colloquy.Text.Utf8
/-!
# Answers of a model server

A completion is a list of choices, of which the first one counts; a choice of
blanks is as good as none. A refusal of the server carries a message with up
to three remarks.
-/

namespace Colloquy

/-- What comes back from a model server. -/
inductive ModelResponse where
  | answered (status : Nat) (body : List UInt8)
  | unreachable (reason : String)

namespace Completion

/-- The shape of a choice. -/
def choiceShape : Shape :=
  .record [Shape.needs "index" .word32,
    Shape.needs "message" (.record [Shape.needs "content" (.optional .anyText),
      Shape.needs "refusal" (.optional .anyText), Shape.needs "role" (.tag
        ["system", "user", "assistant", "tool", "function"])]),
    Shape.needs "finish_reason" (.optional (.tag
      ["stop", "length", "tool_calls", "content_filter", "function_call"])),
    Shape.needs "logprobs" (.optional .any)]

/-- The shape of a completion. -/
def shape : Shape :=
  .record [Shape.needs "id" .anyText, Shape.needs "choices" (.listOf choiceShape),
    Shape.needs "created" .word32, Shape.needs "model" .anyText,
    Shape.needs "object" .anyText]

/-- The shape of a refusal. -/
def refusalShape : Shape :=
  .record [Shape.needs "error" (.record [Shape.needs "message" .anyText,
    Shape.needs "type" (.optional .anyText), Shape.needs "param" (.optional .anyText),
    Shape.needs "code" (.optional .anyText)])]

/-- The wording of a refusal. -/
def refusalText (error : Json) : String :=
  let remark (opening name closing : String) : String :=
    match (error.field name).text? with
    | some s => opening ++ s ++ closing
    | none => ""
  remark "" "type" ": " ++ (error.field "message").textOr "" ++
    remark " (param: " "param" ")" ++ remark " (code: " "code" ")"

/-- What is said of an answer that cannot be read. -/
def unreadable : PipelineError := .request "failed to deserialize api response"

/-- A body as a value of a shape. -/
def read? (shape : Shape) (body : List UInt8) : Option Json :=
  (Text.Utf8.decode? body).bind fun text => (Json.read shape text.toList).toOption

/-- The text of a value's first choice, if it is not blank. -/
def firstText (completion : Json) : Option String :=
  match (completion.field "choices").items with
  | [] => none
  | choice :: _ =>
    (((choice.field "message").field "content").text?).filter fun t => !Text.isBlankText t

/-- The text that a response gives, or none when it is blank. A server in
trouble is quoted as it is. -/
def text? : ModelResponse → Except PipelineError (Option String)
  | .unreachable reason => .error (.request reason)
  | .answered status body =>
    if 200 ≤ status && status < 300 then
      match read? shape body with
      | some j => .ok (firstText j)
      | none => .error unreadable
    else if 500 ≤ status && status < 600 then
      .error (.request ((Text.Utf8.decode? body).getD ""))
    else
      match read? refusalShape body with
      | some j => .error (.request (refusalText (j.field "error")))
      | none => .error unreadable

/-- The output of an agent's task. A blank text is a failure that the pipeline
reports itself. -/
def output (r : ModelResponse) : Except PipelineError PipelineOutput :=
  (text? r).map fun
    | some text => .answer text
    | none => .failed PipelineError.emptyResponse.message

/-- The summary of a history. A blank text is none. -/
def summary (r : ModelResponse) : Except PipelineError String :=
  match text? r with
  | .ok (some text) => .ok text
  | .ok none => .error .emptyResponse
  | .error e => .error e

end Completion

end Colloquy
