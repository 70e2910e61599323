import Colloquy.Arguments.Reading
/-!
# Errands

What the program can be run for, and the arguments that ask for it. Five
switches are the same for every command; given at several commands, the
innermost one counts.
-/

namespace Colloquy

/-- What the program is run for. -/
inductive Errand where
  | serve (host : String) (port : Nat)
  | ask (user room : String) (message : List String)
  | registerRoom (room : String)
  | listRooms
  | deactivateRoom (room : String)
  | removeRoom (room : String) (force : Bool)
  | showMemory (room : String)
  | clearMemory (room : String)
  | listCatalog
  | completions (shell : String)
deriving DecidableEq, Repr

/-- An errand and how it is reported. -/
structure CommandLine where
  errand : Errand
  json : Bool
  quiet : Bool
  verbose : Nat
  logJson : Bool
  otel : Bool
deriving DecidableEq, Repr

namespace CommandLine

open Arguments

/-- The switches that every command takes. -/
def commonSwitches : List Switch :=
  [⟨"json", none, .flag⟩, ⟨"quiet", none, .flag⟩, ⟨"verbose", some 'v', .count⟩,
    ⟨"log-json", none, .flag⟩, ⟨"otel", none, .flag⟩, ⟨"help", some 'h', .help⟩,
    ⟨"version", some 'V', .version⟩]

/-- A number of 64 bits, perhaps with a sign. -/
def signedNumber? (text : String) : Option Int :=
  let (negative, digits) := match text.toList with
    | '-' :: rest => (true, rest)
    | '+' :: rest => (false, rest)
    | rest => (false, rest)
  if digits.isEmpty || !digits.all Char.isDigit then none
  else
    let n : Int := digits.foldl (fun n d => n * 10 + (d.toNat - 48)) 0
    let n := if negative then -n else n
    if -(Nat.pow 2 63 : Int) ≤ n && n < (Nat.pow 2 63 : Int) then some n else none

/-- The port that a text gives. -/
def port? (text : String) : Option Nat :=
  match signedNumber? text with
  | some (.ofNat n) => if n < 65536 then some n else none
  | _ => none

/-- The shells that completions can be made for. -/
def shells : List String := ["bash", "elvish", "fish", "powershell", "zsh"]

/-- A command about one room. -/
def aboutRoom (more : List Switch) : Grammar where
  switches := more ++ commonSwitches
  slot := some ⟨"room_id", false, anything⟩
  required := ["room_id"]

/-- A command that takes nothing of its own. -/
def plain : Grammar := { switches := commonSwitches }

/-- The command that serves. -/
def serveGrammar : Grammar where
  switches :=
    [⟨"host", none, .value anything⟩,
      ⟨"port", some 'p', .value fun s =>
        if (port? s).isSome then .ok () else .error .unreadableValue⟩] ++ commonSwitches

/-- The command that asks. -/
def askGrammar : Grammar where
  switches :=
    [⟨"user", some 'u', .value anything⟩, ⟨"room", some 'r', .value anything⟩] ++ commonSwitches
  slot := some ⟨"message", true, anything⟩
  required := ["room", "message"]

/-- The command for completions. -/
def completionsGrammar : Grammar where
  switches := commonSwitches
  slot := some ⟨"shell", false, fun s =>
    if shells.contains s then .ok () else .error .noSuchValue⟩
  required := ["shell"]

/-- The commands about rooms. -/
def roomGrammar : Grammar where
  switches := commonSwitches
  commands :=
    [(["register"], aboutRoom []), (["list", "ls"], plain), (["deactivate"], aboutRoom []),
      (["remove", "rm"], aboutRoom [⟨"force", none, .flag⟩])]

/-- The commands about histories. -/
def memoryGrammar : Grammar where
  switches := commonSwitches
  commands := [(["show"], aboutRoom []), (["clear"], aboutRoom [])]

/-- The arguments of the program. -/
def grammar : Grammar where
  switches := commonSwitches
  commands :=
    [(["serve"], serveGrammar), (["ask"], askGrammar), (["room"], roomGrammar),
      (["memory"], memoryGrammar), (["agents"], plain), (["completions"], completionsGrammar)]

/-- The errand of the commands that were named and what the last of them was
given. -/
def errand? (path : List String) (r : Reading) : Option Errand :=
  let room := r.valueOr "room_id" ""
  match path with
  | ["serve"] => some (.serve (r.valueOr "host" "127.0.0.1") ((port? (r.valueOr "port" "3000")).getD 0))
  | ["ask"] =>
    some (.ask (r.valueOr "user" "cli") (r.valueOr "room" "") ((r.values? "message").getD []))
  | ["room", "register"] => some (.registerRoom room)
  | ["room", "list"] => some .listRooms
  | ["room", "deactivate"] => some (.deactivateRoom room)
  | ["room", "remove"] => some (.removeRoom room (r.has "force"))
  | ["memory", "show"] => some (.showMemory room)
  | ["memory", "clear"] => some (.clearMemory room)
  | ["agents"] => some .listCatalog
  | ["completions"] => some (.completions (r.valueOr "shell" ""))
  | _ => none

/-- The count of the innermost command that has one. -/
def innermostCount (rs : List Reading) : Nat :=
  match rs.reverse.find? fun r => 0 < r.count with
  | some r => r.count
  | none => 0

/-- The command line of arguments, without the name of the program. -/
def parse (words : List String) : Except UsageError CommandLine := do
  let (path, readings) ← read grammar {} words
  let own := readings.getLast?.getD {}
  let has (name : String) : Bool := readings.any fun r => r.has name
  match errand? path own with
  | none => .error .noCommand
  | some errand =>
    .ok
      { errand := errand
        json := has "json"
        quiet := has "quiet"
        verbose := innermostCount readings
        logJson := has "log-json"
        otel := has "otel" }

end CommandLine

end Colloquy
