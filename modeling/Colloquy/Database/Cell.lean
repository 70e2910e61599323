import Colloquy.Text.Blank
/-!
# Cells

A column has a preferred kind of value and keeps any other as it is given. A
column of whole numbers stores a text as a number if the text reads as one;
whoever asks a cell for another kind than it holds gets nothing.
-/

namespace Colloquy.Database

/-- A stored value. -/
inductive Cell where
  | int (n : Int)
  | text (s : String)
  | octets (bytes : List UInt8)
deriving DecidableEq, Repr

namespace Cell

/-- The whole number of a cell. -/
def int? : Cell → Option Int
  | .int n => some n
  | _ => none

/-- The text of a cell. -/
def text? : Cell → Option String
  | .text s => some s
  | _ => none

/-- Whether a character may stand around a number. -/
def isMargin (c : Char) : Bool :=
  c = ' ' || (9 ≤ c.toNat && c.toNat ≤ 13)

/-- A text without a sign, and whether it was a minus. -/
def signed (s : List Char) : Bool × List Char :=
  match s with
  | '-' :: rest => (true, rest)
  | '+' :: rest => (false, rest)
  | rest => (false, rest)

/-- The number of a list of digits. -/
def digitsValue (digits : List Char) : Nat :=
  digits.foldl (fun n d => n * 10 + (d.toNat - 48)) 0

/-- The power of ten behind a number's letter; no letter means none. -/
def power? (s : List Char) : Option Int :=
  match s with
  | [] => some 0
  | c :: rest =>
    if c = 'e' || c = 'E' then
      let (negative, digits) := signed rest
      if digits.isEmpty || !digits.all Char.isDigit then none
      else some (if negative then -digitsValue digits else digitsValue digits)
    else none

/-- The whole number that a decimal text writes out. Numbers with more than
four hundred places before or behind the point are none. -/
def wholeNumber? (text : String) : Option Int := do
  let body := ((text.toList.dropWhile isMargin).reverse.dropWhile isMargin).reverse
  let (negative, s) := signed body
  let whole := s.takeWhile Char.isDigit
  let s := s.dropWhile Char.isDigit
  let (fraction, s) := match s with
    | '.' :: rest => (rest.takeWhile Char.isDigit, rest.dropWhile Char.isDigit)
    | rest => ([], rest)
  let digits := whole ++ fraction
  let power ← power? s
  let power := power - fraction.length
  if digits.isEmpty || 400 < power.natAbs then none
  else
    let n := digitsValue digits
    let scale := Nat.pow 10 power.natAbs
    let size ←
      if 0 ≤ power then some (n * scale)
      else if n % scale = 0 then some (n / scale)
      else none
    if Nat.pow 2 63 ≤ size then none else some (if negative then -(size : Int) else size)

/-- A text as a column of whole numbers stores it. -/
def ofNumeric (text : String) : Cell :=
  match wholeNumber? text with
  | some n => .int n
  | none => .text text

end Cell

end Colloquy.Database
