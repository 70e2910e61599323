import Colloquy.Json.Printer
import Colloquy.Shape
import Colloquy.Text.Blank
/-!
# Agents and tasks

An agent is a persona, a task a piece of work it can be asked for. The
description of a task has placeholders, and `TaskSpec.render` puts the user's
words into each of them once, from left to right.
-/

namespace Colloquy

/-- A persona. -/
structure AgentSpec where
  name : String
  role : String
  goal : String
  backstory : String
  /-- The model to use instead of the configured one. -/
  model : Option String
  temperature : Option Float32

/-- A piece of work. -/
structure TaskSpec where
  name : String
  description : String
  expectedOutput : String
deriving DecidableEq, Repr

namespace AgentSpec

/-- The shape of an agent's written form. -/
def shape : Shape :=
  .record [Shape.allows "name" .anyText, Shape.needs "role" .anyText,
    Shape.needs "goal" .anyText, Shape.allows "backstory" .anyText,
    Shape.allows "model" (.optional .anyText), Shape.allows "temperature" (.optional .single)]

/-- The agent of a value of the shape. -/
def ofJson (j : Json) : AgentSpec where
  name := (j.field "name").textOr ""
  role := (j.field "role").textOr ""
  goal := (j.field "goal").textOr ""
  backstory := (j.field "backstory").textOr ""
  model := (j.field "model").text?
  temperature := (j.field "temperature").float?.map Float.toFloat32

/-- The JSON form of an agent; what is absent is left out. -/
def toJson (a : AgentSpec) : Json :=
  .object ([("name", .text a.name), ("role", .text a.role), ("goal", .text a.goal),
      ("backstory", .text a.backstory)] ++
    (match a.model with
      | some model => [("model", .text model)]
      | none => []) ++
    match a.temperature with
      | some t => [("temperature", .float t.toFloat)]
      | none => [])

end AgentSpec

namespace TaskSpec

/-- What stands in a description for the user's words. -/
def placeholder : List Char := "\x7bcontent\x7d".toList

/-- A description with every placeholder replaced. Text that has been put in
is not looked at again. -/
def substitute (content : List Char) : Nat → List Char → List Char
  | _, [] => []
  | skip + 1, _ :: rest => substitute content skip rest
  | 0, c :: rest =>
    if (Text.afterPrefix? placeholder (c :: rest)).isSome then
      content ++ substitute content (placeholder.length - 1) rest
    else c :: substitute content 0 rest

/-- The description with the user's words. -/
def render (t : TaskSpec) (content : String) : String :=
  String.ofList (substitute content.toList 0 t.description.toList)

/-- The shape of a task's written form. -/
def shape : Shape :=
  .record [Shape.allows "name" .anyText, Shape.needs "description" .anyText,
    Shape.allows "expected_output" .anyText]

/-- The task of a value of the shape. -/
def ofJson (j : Json) : TaskSpec where
  name := (j.field "name").textOr ""
  description := (j.field "description").textOr ""
  expectedOutput := (j.field "expected_output").textOr ""

/-- The JSON form of a task. -/
def toJson (t : TaskSpec) : Json :=
  .object [("name", .text t.name), ("description", .text t.description),
    ("expected_output", .text t.expectedOutput)]

end TaskSpec

end Colloquy
