import Colloquy.Json.Reader
import Colloquy.Json.Printer
/-!
# The agent pipeline

A pipeline runs an agent on a task. It may fail to answer at all, or complete
and report a failure of its own, which `PipelineOutput.result` turns into an
error whatever text stands beside it.
-/

namespace Colloquy

/-- Why the pipeline gave no text. -/
inductive PipelineError where
  | request (reason : String)
  | reported (reason : String)
  | emptyResponse
deriving DecidableEq, Repr

/-- The wording of a pipeline error. -/
def PipelineError.message : PipelineError → String
  | .request reason => "pipeline request failed: " ++ reason
  | .reported reason => "pipeline reported an error: " ++ reason
  | .emptyResponse => "pipeline returned an empty response"

/-- What one run of the pipeline gives. -/
structure PipelineOutput where
  text : String
  error : Option String
deriving DecidableEq, Repr

namespace PipelineOutput

/-- An output that is an answer. -/
def answer (text : String) : PipelineOutput := ⟨text, none⟩

/-- An output that reports a failure. -/
def failed (reason : String) : PipelineOutput := ⟨"", some reason⟩

/-- The text of an output, unless it reports a failure. -/
def result (out : PipelineOutput) : Except PipelineError String :=
  match out.error with
  | some reason => .error (.reported reason)
  | none => .ok out.text

/-- The shape of an output's JSON form. -/
def shape : Shape :=
  .record [Shape.needs "text" .anyText, Shape.allows "error" (.optional .anyText)]

/-- The JSON form of an output; an absent error is left out. -/
def toJson (out : PipelineOutput) : Json :=
  .object (("text", .text out.text) ::
    match out.error with
    | some reason => [("error", .text reason)]
    | none => [])

/-- The output of a value of the shape. -/
def ofJson (j : Json) : PipelineOutput :=
  ⟨(j.field "text").textOr "", (j.field "error").text?⟩

end PipelineOutput

end Colloquy
