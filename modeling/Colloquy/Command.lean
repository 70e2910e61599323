import Colloquy.Text.Blank
/-!
# Chat commands

A message is a command when, without the blanks around it, it is an `@`, an
agent's name, and then perhaps a task's name and content, with one space
before each of these two. The content keeps its inner spacing. `printed` writes
a command back.
-/

namespace Colloquy

/-- A message addressed to an agent. -/
structure ChatCommand where
  agent : String
  task : String
  content : String
deriving DecidableEq, Repr

namespace ChatCommand

/-- The task of a command that names none. -/
def defaultTask : String := "default"

/-- The text before the first space, and the text behind it. -/
def cutAtSpace : List Char → List Char × Option (List Char)
  | [] => ([], none)
  | c :: rest =>
    if c = ' ' then ([], some rest)
    else
      let (before, after) := cutAtSpace rest
      (c :: before, after)

/-- The command behind an `@`. -/
def ofAddress? (s : List Char) : Option ChatCommand :=
  let (agent, afterAgent) := cutAtSpace s
  if agent.isEmpty then none
  else
    let (task, content) := cutAtSpace (afterAgent.getD [])
    some
      { agent := String.ofList agent
        task := if task.isEmpty then defaultTask else String.ofList task
        content := String.ofList (content.getD []) }

/-- The command that a message is. -/
def parse? (body : String) : Option ChatCommand :=
  match Text.trimChars body.toList with
  | '@' :: rest => ofAddress? rest
  | _ => none

/-- A command as a message. -/
def printed (c : ChatCommand) : String :=
  if c.content = "" then "@" ++ c.agent ++ " " ++ c.task
  else "@" ++ c.agent ++ " " ++ c.task ++ " " ++ c.content

end ChatCommand

end Colloquy
