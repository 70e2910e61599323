import Colloquy.Json.Numeral
import Colloquy.Shape
import Colloquy.Text.Blank
import Colloquy.Text.Hex
/-!
# Reading JSON text against a shape

The text is read once, from left to right, and the first fault ends the
reading: a text that is not JSON up to there is `malformed`, one that is JSON
of another shape a `mismatch`. A record may be written as an object, whose
unknown members are passed over, or as the list of its fields in the order of
their declaration.

Every function takes a bound on the number of calls below it. `read` gives
the length of the text, which each call shortens.
-/

namespace Colloquy.Json

/-- Why a text is not read. -/
inductive Fault where
  /-- The text is not JSON. -/
  | malformed
  /-- The value has another shape. -/
  | mismatch
deriving DecidableEq, Repr

/-- How deep lists and objects may stand in each other. -/
def depthLimit : Nat := 127

/-- Whether a character may stand between two tokens. -/
def isSpace (c : Char) : Bool :=
  c = ' ' || c = '\n' || c = '\t' || c = '\r'

/-- A text without the spaces it starts with. -/
def skipSpace (s : List Char) : List Char :=
  s.dropWhile isSpace

/-- The rest of a literal. -/
def literal {α : Type} (word : String) (value : α) (s : List Char) : Except Fault (α × List Char) :=
  match Text.afterPrefix? word.toList s with
  | some rest => .ok (value, rest)
  | none => .error .malformed

/-- The character that a letter behind a backslash stands for. -/
def unescape? (c : Char) : Option Char :=
  if c = '"' || c = '\\' || c = '/' then some c
  else if c = 'b' then some (Char.ofNat 8)
  else if c = 'f' then some (Char.ofNat 12)
  else if c = 'n' then some '\n'
  else if c = 'r' then some '\r'
  else if c = 't' then some '\t'
  else none

/-- The number of four hexadecimal digits. -/
def unit? (a b c d : Char) : Option Nat :=
  match Text.Hex.digitValue? a, Text.Hex.digitValue? b, Text.Hex.digitValue? c,
      Text.Hex.digitValue? d with
  | some a, some b, some c, some d => some (((a * 16 + b) * 16 + c) * 16 + d)
  | _, _, _, _ => none

/-- A text up to its closing quote. A half of a surrogate pair stands only
before or behind its other half. -/
def textBody : List Char → Except Fault (List Char × List Char)
  | [] => .error .malformed
  | '"' :: rest => .ok ([], rest)
  | '\\' :: 'u' :: a :: b :: c :: d :: rest =>
    match unit? a b c d with
    | none => .error .malformed
    | some n =>
      if 0xDC00 ≤ n && n ≤ 0xDFFF then .error .malformed
      else if 0xD800 ≤ n && n ≤ 0xDBFF then
        match rest with
        | '\\' :: 'u' :: e :: f :: g :: h :: rest =>
          match unit? e f g h with
          | none => .error .malformed
          | some m =>
            if 0xDC00 ≤ m && m ≤ 0xDFFF then
              (textBody rest).map fun (s, rest) =>
                (Char.ofNat (0x10000 + (n - 0xD800) * 1024 + (m - 0xDC00)) :: s, rest)
            else .error .malformed
        | _ => .error .malformed
      else (textBody rest).map fun (s, rest) => (Char.ofNat n :: s, rest)
  | '\\' :: c :: rest =>
    match unescape? c with
    | none => .error .malformed
    | some c => (textBody rest).map fun (s, rest) => (c :: s, rest)
  | c :: rest =>
    if c.toNat < 32 then .error .malformed
    else (textBody rest).map fun (s, rest) => (c :: s, rest)

/-- What follows a text that is passed over. Its escapes are checked one by
one, so halves of pairs may stand alone. -/
def skipText : List Char → Except Fault (Unit × List Char)
  | [] => .error .malformed
  | '"' :: rest => .ok ((), rest)
  | '\\' :: 'u' :: a :: b :: c :: d :: rest =>
    if (unit? a b c d).isSome then skipText rest else .error .malformed
  | '\\' :: c :: rest => if (unescape? c).isSome then skipText rest else .error .malformed
  | c :: rest => if c.toNat < 32 then .error .malformed else skipText rest

/-- A text with its quotes, when one stands next. -/
def quoted? (s : List Char) : Option (Except Fault (String × List Char)) :=
  match skipSpace s with
  | '"' :: rest => some ((textBody rest).map fun (t, rest) => (String.ofList t, rest))
  | _ => none

/-- A numeral with its sign. -/
def signedNumeral (s : List Char) : Except Fault (Json × List Char) :=
  let r :=
    match s with
    | '-' :: rest => numeral? true rest
    | s => numeral? false s
  match r with
  | some r => .ok r
  | none => .error .malformed

/-- Whether a character can begin a numeral. -/
def beginsNumeral (c : Char) : Bool :=
  c = '-' || isDigit c

/-- A value that holds no other. -/
def readScalar (s : List Char) : Except Fault (Json × List Char) :=
  match s with
  | 'n' :: rest => literal "ull" .null rest
  | 't' :: rest => literal "rue" (.bool true) rest
  | 'f' :: rest => literal "alse" (.bool false) rest
  | '"' :: rest => (textBody rest).map fun (t, rest) => (.text (String.ofList t), rest)
  | c :: rest => if beginsNumeral c then signedNumeral (c :: rest) else .error .malformed
  | [] => .error .malformed

/-- The fault of a value of another kind than expected: a list or an object
is one at once, anything else when it has been read. -/
def unexpected (s : List Char) : Fault :=
  match skipSpace s with
  | '[' :: _ => .mismatch
  | '\x7b' :: _ => .mismatch
  | s =>
    match readScalar s with
    | .ok _ => .mismatch
    | .error f => f

/-- A colon, with space before it. -/
def colon (s : List Char) : Except Fault (Unit × List Char) :=
  match skipSpace s with
  | ':' :: rest => .ok ((), rest)
  | _ => .error .malformed

/-- What stands before the next item or the end of a list or an object that
closes with `close`: the text of the next item, or what follows the end. -/
inductive Turn where
  | next (s : List Char)
  | done (rest : List Char)

/-- Passes the comma before an item, which the first item has not and the end
must not have. -/
def turn (close : Char) (first : Bool) (s : List Char) : Except Fault Turn :=
  match skipSpace s with
  | [] => .error .malformed
  | c :: rest =>
    if c = close then .ok (.done rest)
    else if first then .ok (.next (c :: rest))
    else if c = ',' then
      match skipSpace rest with
      | [] => .error .malformed
      | d :: rest => if d = close then .error .malformed else .ok (.next (d :: rest))
    else .error .malformed

/-- The name of a member with its colon. -/
def memberName (s : List Char) : Except Fault (String × List Char) :=
  match quoted? s with
  | none => .error .malformed
  | some r => r

mutual

/-- Passes over a value; `depth` is not bounded. -/
def skipValue : Nat → List Char → Except Fault (Unit × List Char)
  | 0, _ => .error .malformed
  | fuel + 1, s =>
    match skipSpace s with
    | '[' :: rest => skipItems fuel true rest
    | '\x7b' :: rest => skipMembers fuel true rest
    | '"' :: rest => skipText rest
    | '-' :: rest =>
      match skipNumeral? rest with
      | some rest => .ok ((), rest)
      | none => .error .malformed
    | c :: rest =>
      if isDigit c then
        match skipNumeral? (c :: rest) with
        | some rest => .ok ((), rest)
        | none => .error .malformed
      else (readScalar (c :: rest)).map fun (_, rest) => ((), rest)
    | [] => .error .malformed

/-- Passes over the items of a list. -/
def skipItems : Nat → Bool → List Char → Except Fault (Unit × List Char)
  | 0, _, _ => .error .malformed
  | fuel + 1, first, s => do
    match ← turn ']' first s with
    | .done rest => .ok ((), rest)
    | .next s =>
      let (_, rest) ← skipValue fuel s
      skipItems fuel false rest

/-- Passes over the members of an object. -/
def skipMembers : Nat → Bool → List Char → Except Fault (Unit × List Char)
  | 0, _, _ => .error .malformed
  | fuel + 1, first, s => do
    match ← turn '\x7d' first s with
    | .done rest => .ok ((), rest)
    | .next s =>
      match s with
      | '"' :: rest =>
        let (_, rest) ← skipText rest
        let (_, rest) ← colon rest
        let (_, rest) ← skipValue fuel rest
        skipMembers fuel false rest
      | _ => .error .malformed

end

mutual

/-- Any value. -/
def readAny : Nat → Nat → List Char → Except Fault (Json × List Char)
  | 0, _, _ => .error .malformed
  | fuel + 1, depth, s =>
    match skipSpace s with
    | '[' :: rest =>
      if depth = 0 then .error .malformed
      else (readAnyItems fuel (depth - 1) true rest).map fun (xs, rest) => (.list xs, rest)
    | '\x7b' :: rest =>
      if depth = 0 then .error .malformed
      else (readAnyMembers fuel (depth - 1) true rest).map fun (ms, rest) => (ofMembers ms, rest)
    | s => readScalar s

/-- The items of a list of any values. -/
def readAnyItems : Nat → Nat → Bool → List Char → Except Fault (List Json × List Char)
  | 0, _, _, _ => .error .malformed
  | fuel + 1, depth, first, s => do
    match ← turn ']' first s with
    | .done rest => .ok ([], rest)
    | .next s =>
      let (x, rest) ← readAny fuel depth s
      let (xs, rest) ← readAnyItems fuel depth false rest
      .ok (x :: xs, rest)

/-- The members of an object of any values, in the order of the text. -/
def readAnyMembers : Nat → Nat → Bool → List Char → Except Fault (List (String × Json) × List Char)
  | 0, _, _, _ => .error .malformed
  | fuel + 1, depth, first, s => do
    match ← turn '\x7d' first s with
    | .done rest => .ok ([], rest)
    | .next s =>
      let (name, rest) ← memberName s
      let (_, rest) ← colon rest
      let (value, rest) ← readAny fuel depth rest
      let (ms, rest) ← readAnyMembers fuel depth false rest
      .ok ((name, value) :: ms, rest)

end

/-- A value that holds no other, of a shape that takes such values. -/
def readLeaf (shape : Shape) (s : List Char) : Except Fault (Json × List Char) :=
  match shape, skipSpace s with
  | .text accepts, '"' :: rest => do
    let (t, rest) ← textBody rest
    if accepts (String.ofList t) then .ok (.text (String.ofList t), rest) else .error .mismatch
  | .bool, 't' :: rest => literal "rue" (.bool true) rest
  | .bool, 'f' :: rest => literal "alse" (.bool false) rest
  | .nat max, c :: rest =>
    if beginsNumeral c then do
      match ← signedNumeral (c :: rest) with
      | (.int (.ofNat n), rest) => if n ≤ max then .ok (.int n, rest) else .error .mismatch
      | _ => .error .mismatch
    else .error (unexpected (c :: rest))
  | .double, c :: rest =>
    if beginsNumeral c then do
      match ← signedNumeral (c :: rest) with
      | (.int n, rest) => .ok (.float (Number.ofInt n), rest)
      | r => .ok r
    else .error (unexpected (c :: rest))
  | .single, c :: rest =>
    if beginsNumeral c then do
      match ← signedNumeral (c :: rest) with
      | (.int n, rest) => .ok (.float (Number.singleOfInt n).toFloat, rest)
      | (.float x, rest) => .ok (.float x.toFloat32.toFloat, rest)
      | r => .ok r
    else .error (unexpected (c :: rest))
  | _, s => .error (unexpected s)

/-- One of some names, alone or as the only member of an object that holds
null under it. -/
def readTag (names : List String) (depth : Nat) (s : List Char) : Except Fault (Json × List Char) :=
  match skipSpace s with
  | '"' :: rest => do
    let (t, rest) ← textBody rest
    if names.contains (String.ofList t) then .ok (.text (String.ofList t), rest)
    else .error .mismatch
  | '\x7b' :: rest =>
    if depth = 0 then .error .malformed
    else
      match quoted? rest with
      | none => .error (unexpected rest)
      | some r => do
        let (t, rest) ← r
        if !names.contains t then .error .mismatch
        else
          let (_, rest) ← colon rest
          match skipSpace rest with
          | 'n' :: rest =>
            let (_, rest) ← literal "ull" () rest
            match skipSpace rest with
            | '\x7d' :: rest => .ok (.text t, rest)
            | _ => .error .malformed
          | rest => .error (unexpected rest)
  | _ => .error .malformed

/-- The members of a record in the order of its declaration, when none that it
needs is missing. -/
def arrange (fields : List Shape.Field) (found : List (String × Json)) :
    Except Fault (List (String × Json)) :=
  match fields with
  | [] => .ok []
  | f :: rest =>
    match Named.find? f.1 found with
    | some v => (arrange rest found).map ((f.1, v) :: ·)
    | none => if f.omittable then arrange rest found else .error .mismatch

mutual

/-- A value of a shape. -/
def readShape : Nat → Nat → Shape → List Char → Except Fault (Json × List Char)
  | 0, _, _, _ => .error .malformed
  | fuel + 1, depth, shape, s =>
    match shape with
    | .any => readAny (fuel + 1) depth s
    | .tag names => readTag names depth s
    | .optional inner =>
      match skipSpace s with
      | 'n' :: rest => literal "ull" .null rest
      | s => readShape fuel depth inner s
    | .listOf inner =>
      match skipSpace s with
      | '[' :: rest =>
        if depth = 0 then .error .malformed
        else (readList fuel (depth - 1) inner true rest).map fun (xs, rest) => (.list xs, rest)
      | s => .error (unexpected s)
    | .mapOf inner =>
      match skipSpace s with
      | '\x7b' :: rest =>
        if depth = 0 then .error .malformed
        else (readMap fuel (depth - 1) inner true rest).map fun (ms, rest) => (ofMembers ms, rest)
      | s => .error (unexpected s)
    | .record fields =>
      match skipSpace s with
      | '\x7b' :: rest =>
        if depth = 0 then .error .malformed
        else (readFields fuel (depth - 1) fields true [] rest).map fun (ms, rest) =>
          (.object ms, rest)
      | '[' :: rest =>
        if depth = 0 then .error .malformed
        else (readPositions fuel (depth - 1) fields true rest).map fun (ms, rest) =>
          (.object ms, rest)
      | s => .error (unexpected s)
    | leaf => readLeaf leaf s

/-- The items of a list of one shape. -/
def readList : Nat → Nat → Shape → Bool → List Char → Except Fault (List Json × List Char)
  | 0, _, _, _, _ => .error .malformed
  | fuel + 1, depth, inner, first, s => do
    match ← turn ']' first s with
    | .done rest => .ok ([], rest)
    | .next s =>
      let (x, rest) ← readShape fuel depth inner s
      let (xs, rest) ← readList fuel depth inner false rest
      .ok (x :: xs, rest)

/-- The members of an object whose values have one shape. -/
def readMap : Nat → Nat → Shape → Bool → List Char → Except Fault (List (String × Json) × List Char)
  | 0, _, _, _, _ => .error .malformed
  | fuel + 1, depth, inner, first, s => do
    match ← turn '\x7d' first s with
    | .done rest => .ok ([], rest)
    | .next s =>
      let (name, rest) ← memberName s
      let (_, rest) ← colon rest
      let (value, rest) ← readShape fuel depth inner rest
      let (ms, rest) ← readMap fuel depth inner false rest
      .ok ((name, value) :: ms, rest)

/-- The members of a record, of which `found` have been read. A field that
comes again is refused before its value is read. -/
def readFields : Nat → Nat → List Shape.Field → Bool → List (String × Json) → List Char →
    Except Fault (List (String × Json) × List Char)
  | 0, _, _, _, _, _ => .error .malformed
  | fuel + 1, depth, fields, first, found, s => do
    match ← turn '\x7d' first s with
    | .done rest => (arrange fields found).map fun ms => (ms, rest)
    | .next s =>
      let (name, rest) ← memberName s
      match Shape.fieldShape? name fields with
      | none =>
        let (_, rest) ← colon rest
        let (_, rest) ← skipValue fuel rest
        readFields fuel depth fields false found rest
      | some shape =>
        if (Named.find? name found).isSome then .error .mismatch
        else
          let (_, rest) ← colon rest
          let (value, rest) ← readShape fuel depth shape rest
          readFields fuel depth fields false ((name, value) :: found) rest

/-- The fields of a record as the items of a list. The last ones may be
missing when they have defaults, and none may follow the last. -/
def readPositions : Nat → Nat → List Shape.Field → Bool → List Char →
    Except Fault (List (String × Json) × List Char)
  | 0, _, _, _, _ => .error .malformed
  | _ + 1, _, [], _, s =>
    match skipSpace s with
    | ']' :: rest => .ok ([], rest)
    | _ => .error .malformed
  | fuel + 1, depth, (name, presence, shape) :: fields, first, s => do
    match ← turn ']' first s with
    | .done rest =>
      if ((name, presence, shape) :: fields).all fun f => f.2.1 = .defaulted then .ok ([], rest)
      else .error .mismatch
    | .next s =>
      let (value, rest) ← readShape fuel depth shape s
      let (ms, rest) ← readPositions fuel depth fields false rest
      .ok ((name, value) :: ms, rest)

end

/-- The value of a whole text, which may have space around it. -/
def read (shape : Shape) (s : List Char) : Except Fault Json := do
  let (value, rest) ← readShape (2 * s.length + 8) depthLimit shape s
  match skipSpace rest with
  | [] => .ok value
  | _ => .error .malformed

/-- The value of a whole text of any shape. -/
def parse? (s : String) : Option Json :=
  (read .any s.toList).toOption

end Colloquy.Json
