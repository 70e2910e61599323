import Colloquy.Json.Basic
import Colloquy.Shape
import Colloquy.Yaml.Node
/-!
# YAML documents and shapes

Which nodes fit a shape. A plain scalar is text wherever text is expected, and
nothing where nothing may be; an alias stands for the node of its anchor. Only
a mapping fits a record or a map, and an empty plain scalar does like an empty
one.

`Document.conform?` reads the shapes that files of named specifications are
made of; no document fits any other one.
-/

namespace Colloquy.Yaml

/-- A text's document. -/
structure Document where
  /-- The root, if the text has a document at all. -/
  root : Option Node

namespace Document

/-- The document of a text, if the text keeps all rules. -/
def ofText? (text : String) : Option Document := do
  let tokens ← tokens? text.toList
  let root ← root? tokens
  some ⟨root⟩

/-- The last node of an anchor's number. -/
def find? (number : Nat) (anchored : List (Nat × Node)) : Option Node :=
  (anchored.reverse.find? fun e => e.1 = number).map (·.2)

/-- The node that an alias stands for; any other node stands for itself. -/
def resolve (anchored : List (Nat × Node)) : Node → Node
  | .alias n => (find? n anchored).getD (.alias n)
  | n => n

/-- Spellings of nothing. -/
def isNullWord (s : List Char) : Bool :=
  ["null", "Null", "NULL", "~"].any fun w => w.toList = s

/-- The tags that the standard names with a word. -/
def standardTag (word : String) : List Char := ("tag:yaml.org,2002:" ++ word).toList

/-- Whether a node that may be missing is there; a node that claims to be
nothing and is not has no answer. -/
def isPresent? : Node → Option Bool
  | .scalar _ tag .plain text =>
    match tag with
    | none => some !(text.isEmpty || isNullWord text)
    | some t =>
      if t = standardTag "null" then if isNullWord text then some false else none
      else some true
  | _ => some true

/-- The words for numbers that are not finite. -/
def special? (s : List Char) : Option Float :=
  let isOneOf (words : List String) : Bool := words.any fun w => w.toList = s
  if isOneOf [".inf", ".Inf", ".INF", "+.inf", "+.Inf", "+.INF"] then some (1.0 / 0.0)
  else if isOneOf ["-.inf", "-.Inf", "-.INF"] then some (-1.0 / 0.0)
  else if isOneOf [".nan", ".NaN", ".NAN"] then some (0.0 / 0.0)
  else none

/-- The exponent behind its letter, with an optional sign. -/
def exponent? (s : List Char) : Option Int :=
  let (negative, digits) := match s with
    | '-' :: rest => (true, rest)
    | '+' :: rest => (false, rest)
    | rest => (false, rest)
  if digits.isEmpty || !digits.all Char.isDigit then none
  else
    let n : Int := digits.foldl (fun n d => n * 10 + (d.toNat - 48)) 0
    some (if negative then -n else n)

/-- A decimal number: digits with a point anywhere or nowhere among them, and
an exponent if there is a letter for it. -/
def decimal? (s : List Char) : Option Float :=
  let (negative, s) := match s with
    | '-' :: rest => (true, rest)
    | '+' :: rest => (false, rest)
    | rest => (false, rest)
  let whole := s.takeWhile Char.isDigit
  let s := s.dropWhile Char.isDigit
  let (fraction, s) := match s with
    | '.' :: rest => (rest.takeWhile Char.isDigit, rest.dropWhile Char.isDigit)
    | rest => ([], rest)
  let power := match s with
    | [] => some 0
    | c :: rest => if c = 'e' || c = 'E' then exponent? rest else none
  let digits := whole ++ fraction
  if digits.isEmpty then none
  else
    power.bind fun p =>
      let n := digits.foldl (fun n d => n * 10 + (d.toNat - 48)) 0
      let x := Number.nearest negative n (p - fraction.length)
      if x.isFinite then some x else none

/-- The number of a plain scalar, or of a literal one that is tagged as such. -/
def number? : Node → Option Float
  | .scalar _ tag style text =>
    if style = .plain || (style = .literal && tag = some (standardTag "float")) then
      (special? text).or (decimal? text)
    else none
  | _ => none

/-- The pairs of a mapping. -/
def pairs? : Node → Option (List (Node × Node))
  | .mapping _ pairs => some pairs
  | .scalar _ _ .plain [] => some []
  | _ => none

/-- The text of a scalar. -/
def text? : Node → Option String
  | .scalar _ _ _ text => some (String.ofList text)
  | _ => none

/-- The entries of a mapping, whose keys are scalars or aliases of such. -/
def entries? (anchored : List (Nat × Node)) (n : Node) : Option (List (String × Node)) :=
  (pairs? n).bind fun pairs =>
    pairs.mapM fun p => (text? (resolve anchored p.1)).map fun key => (key, p.2)

mutual

/-- The node as JSON, when it fits a shape. -/
def conformNode? (anchored : List (Nat × Node)) : Shape → Node → Option Json
  | .optional inner, n =>
    match isPresent? (resolve anchored n) with
    | some true => conformNode? anchored inner n
    | some false => some .null
    | none => none
  | .text accepts, n =>
    (text? (resolve anchored n)).bind fun s => if accepts s then some (.text s) else none
  | .double, n => (number? (resolve anchored n)).map .float
  | .single, n => (number? (resolve anchored n)).map fun x => .float x.toFloat32.toFloat
  | .mapOf inner, n =>
    (entries? anchored (resolve anchored n)).bind fun entries =>
      (entries.mapM fun e => (conformNode? anchored inner e.2).map fun j => (e.1, j)).map
        Json.ofMembers
  | .record fields, n =>
    (entries? anchored (resolve anchored n)).bind fun entries =>
      (conformFields? anchored fields entries).map .object
  | _, _ => none

/-- The fields of a record, of which the entries may have each one once. -/
def conformFields? (anchored : List (Nat × Node)) :
    List (String × Presence × Shape) → List (String × Node) → Option (List (String × Json))
  | [], _ => some []
  | (name, presence, shape) :: fields, entries => do
    let xs ← conformFields? anchored fields entries
    match entries.filter fun e => e.1 = name with
    | [] => if Shape.Field.omittable (name, presence, shape) then some xs else none
    | [(_, n)] => (conformNode? anchored shape n).map fun x => (name, x) :: xs
    | _ => none

end

/-- The document as JSON, when it fits a shape. A text without a document
counts as an empty scalar. -/
def conform? (shape : Shape) (d : Document) : Option Json :=
  let root := d.root.getD .blank
  conformNode? root.anchored shape root

end Document

end Colloquy.Yaml
