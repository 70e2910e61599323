import Colloquy.Arguments.Errand
import Colloquy.Program
/-!
# How the program is used

Help, version and shell completions: what the program says of itself.
-/

namespace Colloquy.Console

open Arguments

/-- The commands with what each does. -/
def commandTexts : List (String × String) :=
  [("serve", "Start the REST API server"),
    ("ask", "Send one chat message through the bot and print the reply"),
    ("room", "Manage registered rooms"), ("memory", "Inspect or clear a room's stored history"),
    ("agents", "List agents and tasks from the catalog"),
    ("completions", "Generate shell completions")]

/-- The page of help. -/
def helpPage : String :=
  "Multi-agent chat bot with encrypted per-room memory\n\nUsage: " ++ Program.name ++
    " [OPTIONS] <COMMAND>\n\nCommands:\n" ++
    String.join (commandTexts.map fun (name, text) =>
      "  " ++ name ++ String.ofList (List.replicate (13 - name.length) ' ') ++ text ++ "\n")

/-- The version of a command: the names down to it joined, and the number. -/
def versionText (commands : List String) : String :=
  "-".intercalate (Program.name :: commands) ++ " " ++ Program.version

/-- What is written when there is nothing to run but something was asked
for. -/
def usageText : UsageError → String
  | .helpAsked => helpPage
  | .versionAsked commands => versionText commands ++ "\n"
  | _ => ""

/-- What is complained of when the arguments cannot be understood. -/
def complaint : UsageError → String
  | .helpAsked => ""
  | .versionAsked _ => ""
  | .nothingGiven => helpPage
  | .noCommand => "error: a command is required but none was given\n"
  | .unknownCommand => "error: unrecognized command\n"
  | .unknownArgument => "error: unexpected argument found\n"
  | .missingArgument => "error: a required argument was not given\n"
  | .noSuchValue => "error: an argument lacks a possible value\n"
  | .unreadableValue => "error: an argument has an invalid value\n"
  | .extraValue => "error: an argument was given a value and takes none\n"
  | .repeated => "error: an argument was given more than once\n"

/-- The names of all commands, with a space between them. -/
def commandWords : String := " ".intercalate (commandTexts.map (·.1))

/-- A script by which a shell completes the commands. -/
def completions (shell : String) : String :=
  let program := Program.name
  match shell with
  | "zsh" => "#compdef " ++ program ++ "\ncompadd " ++ commandWords ++ "\n"
  | "fish" => "complete -c " ++ program ++ " -f -a '" ++ commandWords ++ "'\n"
  | "powershell" =>
    "Register-ArgumentCompleter -Native -CommandName '" ++ program ++ "' -ScriptBlock \x7b '" ++
      commandWords ++ "' -split ' ' \x7d\n"
  | "elvish" =>
    "set edit:completion:arg-completer[" ++ program ++ "] = \x7b|@words| put " ++ commandWords ++
      " \x7d\n"
  | _ => "complete -W '" ++ commandWords ++ "' " ++ program ++ "\n"

end Colloquy.Console
