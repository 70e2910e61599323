import Colloquy.Arguments.Grammar
import Colloquy.Text.Blank
/-!
# Reading argument lists

Words are read one by one. What a switch or a slot has been given is only
checked when the next thing is read, or at the end, so that of two faults
the one that is noticed first is the one that counts. Behind `--`, and behind
the first word of a tail, every word stands for itself.
-/

namespace Colloquy.Arguments

/-- Values that have been given and not been checked. -/
structure Pending where
  name : String
  check : Check
  values : List String

/-- What a command has been given so far. -/
structure Reading where
  /-- The switches and slots that have been checked, with their values. -/
  given : List (String × List String) := []
  /-- How often the counting switch was given, up to 255. -/
  count : Nat := 0
  pending : Option Pending := none
  /-- Whether the pending switch waits for its value. -/
  isAwaiting : Bool := false
  /-- Whether the slot has its word. -/
  isFilled : Bool := false
  /-- Whether every further word stands for itself. -/
  isLiteral : Bool := false

namespace Reading

/-- The values of a name, if it was given. -/
def values? (r : Reading) (name : String) : Option (List String) :=
  (r.given.find? fun g => g.1 = name).map (·.2)

/-- Whether a name was given. -/
def has (r : Reading) (name : String) : Bool := (r.values? name).isSome

/-- The value of a name, or its default. -/
def valueOr (r : Reading) (name default : String) : String :=
  match r.values? name with
  | some (v :: _) => v
  | _ => default

/-- Takes checked values under a name, which must not have any. -/
def record (r : Reading) (name : String) (check : Check) (values : List String) :
    Except UsageError Reading :=
  if r.has name then .error .repeated
  else do
    values.forM check
    .ok { r with given := r.given ++ [(name, values)] }

/-- Checks what is pending. -/
def settle (r : Reading) : Except UsageError Reading :=
  match r.pending with
  | none => .ok r
  | some p =>
    if p.values.isEmpty then .error .noSuchValue
    else { r with pending := none, isAwaiting := false }.record p.name p.check p.values

/-- A switch is given, perhaps with a value attached to it. -/
def apply (r : Reading) (s : Switch) (attached : Option String) : Except UsageError Reading :=
  match s.effect, attached with
  | .value check, some v => do (← r.settle).record s.name check [v]
  | .value check, none => do
    let r ← r.settle
    .ok { r with pending := some ⟨s.name, check, []⟩, isAwaiting := true }
  | _, some _ => .error .extraValue
  | .flag, none => do (← r.settle).record s.name anything []
  | .count, none => do
    let r ← r.settle
    .ok { r with count := min 255 (r.count + 1) }
  | .help, none => do
    let _ ← r.settle
    .error .helpAsked
  | .version, none => do
    let _ ← r.settle
    .error (.versionAsked [])

/-- A text up to an equals sign, and what follows that. -/
def splitEquals (s : List Char) : List Char × Option (List Char) :=
  match s.span (· ≠ '=') with
  | (name, []) => (name, none)
  | (name, _ :: value) => (name, some value)

/-- A switch by its name. -/
def applyLong (g : Grammar) (r : Reading) (s : List Char) : Except UsageError Reading :=
  let (name, attached) := splitEquals s
  match g.switch? (String.ofList name) with
  | none => .error .unknownArgument
  | some switch => r.apply switch (attached.map String.ofList)

/-- Switches by their letters; the letters behind one that takes a value are
its value. -/
def applyLetters (g : Grammar) (r : Reading) : List Char → Except UsageError Reading
  | [] => .ok r
  | c :: rest =>
    match g.letter? c with
    | none => .error .unknownArgument
    | some switch =>
      match switch.effect, rest with
      | .value _, [] => r.apply switch none
      | .value _, '=' :: value => r.apply switch (some (String.ofList value))
      | .value _, value => r.apply switch (some (String.ofList value))
      | _, rest =>
        match r.apply switch none with
        | .error e => .error e
        | .ok r => applyLetters g r rest

/-- The fault of a word for which there is no place. -/
def misplaced (g : Grammar) (r : Reading) (word : String) : UsageError :=
  if r.isLiteral && g.leadsOn word then .unknownArgument
  else if g.commands.isEmpty then .unknownArgument
  else .unknownCommand

/-- A word that stands for itself. -/
def place (g : Grammar) (r : Reading) (word : String) : Except UsageError Reading :=
  match g.slot with
  | none => .error (r.misplaced g word)
  | some slot =>
    if slot.isTail then
      match r.pending with
      | some p =>
        if p.name = slot.name then
          .ok { r with pending := some { p with values := p.values ++ [word] } }
        else do
          let r ← r.settle
          .ok { r with pending := some ⟨slot.name, slot.check, [word]⟩, isLiteral := true }
      | none => .ok { r with pending := some ⟨slot.name, slot.check, [word]⟩, isLiteral := true }
    else if r.isFilled then .error (r.misplaced g word)
    else do
      let r ← r.settle
      .ok { r with pending := some ⟨slot.name, slot.check, [word]⟩, isFilled := true }

/-- A word that is no command. -/
def take (g : Grammar) (r : Reading) (word : String) : Except UsageError Reading :=
  if r.isLiteral then r.place g word
  else
    match word.toList with
    | ['-', '-'] => .ok { r with isLiteral := true }
    | '-' :: '-' :: name => r.applyLong g name
    | '-' :: c :: letters => r.applyLetters g (c :: letters)
    | _ =>
      match r.isAwaiting, r.pending with
      | true, some p =>
        .ok { r with pending := some { p with values := [word] }, isAwaiting := false }
      | _, _ => r.place g word

/-- The end of the words: everything is checked, and what has to be there must
be. -/
def finish (g : Grammar) (r : Reading) : Except UsageError Reading := do
  let r ← r.settle
  if !g.commands.isEmpty then
    .error (if r.given.isEmpty && r.count = 0 then .nothingGiven else .noCommand)
  else if g.required.all r.has then .ok r
  else .error .missingArgument

end Reading

/-- What comes of asking for help about a command. -/
def helpOn : Grammar → List String → UsageError
  | _, [] => .helpAsked
  | g, word :: rest =>
    match g.command? word with
    | some (_, sub) => helpOn sub rest
    | none => if g.leadsOn word && rest.isEmpty then .helpAsked else .unknownCommand

/-- The commands that words name, outermost first, and what each command was
given, beginning with the program itself. -/
def read (g : Grammar) (r : Reading) : List String →
    Except UsageError (List String × List Reading)
  | [] => (r.finish g).map fun r => ([], [r])
  | word :: rest =>
    if !r.isLiteral && !r.isAwaiting && g.leadsOn word then
      match g.command? word with
      | some (name, sub) =>
        match read sub {} rest with
        | .ok (path, rs) => .ok (name :: path, r :: rs)
        | .error e => .error (e.within name)
      | none => .error (helpOn g rest)
    else
      match r.take g word with
      | .ok r => read g r rest
      | .error e => .error e

end Colloquy.Arguments
