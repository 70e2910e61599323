/-!
# Grammars of argument lists

A command takes switches, perhaps words of its own, and perhaps a further
command. Which of these a command has, and what it asks of them, is its
`Grammar`.
-/

namespace Colloquy.Arguments

/-- Why there is nothing to run. -/
inductive UsageError where
  | helpAsked
  /-- The version was asked for behind some commands, outermost first. -/
  | versionAsked (commands : List String)
  /-- Nothing was given where a command is needed. -/
  | nothingGiven
  /-- Something was given, but no command. -/
  | noCommand
  | unknownCommand
  | unknownArgument
  | missingArgument
  /-- A switch lacks its value, or the value is none of those it can have. -/
  | noSuchValue
  /-- A value cannot be read as what it should be. -/
  | unreadableValue
  /-- A switch without a value was given one. -/
  | extraValue
  | repeated
deriving DecidableEq, Repr

/-- The exit code of the program that is not run. -/
def UsageError.exitCode : UsageError → Nat
  | .helpAsked => 0
  | .versionAsked _ => 0
  | _ => 2

/-- The error of a command seen from the one that it belongs to. -/
def UsageError.within (command : String) : UsageError → UsageError
  | .versionAsked commands => .versionAsked (command :: commands)
  | e => e

/-- Whether a value is accepted. -/
abbrev Check := String → Except UsageError Unit

/-- A check that accepts everything. -/
def anything : Check := fun _ => .ok ()

/-- What a switch does. -/
inductive Effect where
  | flag
  /-- It counts how often it is given. -/
  | count
  | help
  | version
  /-- It takes a value. -/
  | value (check : Check)

/-- A switch: `--name`, and perhaps a letter behind a single dash. -/
structure Switch where
  name : String
  letter : Option Char
  effect : Effect

/-- The words of a command's own. -/
structure Slot where
  name : String
  /-- Whether it takes all words from its first one on. -/
  isTail : Bool
  check : Check

/-- What a command takes. -/
structure Grammar where
  switches : List Switch
  slot : Option Slot := none
  /-- The names that have to be given. -/
  required : List String := []
  /-- The further commands: the words for each, of which the first is its
  name. -/
  commands : List (List String × Grammar) := []

namespace Grammar

/-- The further command of a word. -/
def command? (g : Grammar) (word : String) : Option (String × Grammar) :=
  (g.commands.find? fun c => c.1.contains word).map fun c => (c.1.headD word, c.2)

/-- Whether a word leads on; where there are commands, one of them is help. -/
def leadsOn (g : Grammar) (word : String) : Bool :=
  (g.command? word).isSome || (word = "help" && !g.commands.isEmpty)

/-- The switch of a name. -/
def switch? (g : Grammar) (name : String) : Option Switch :=
  g.switches.find? fun s => s.name = name

/-- The switch of a letter. -/
def letter? (g : Grammar) (letter : Char) : Option Switch :=
  g.switches.find? fun s => s.letter = some letter

end Grammar

end Colloquy.Arguments
