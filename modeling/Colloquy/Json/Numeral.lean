import Colloquy.Json.Basic
/-!
# Numerals of JSON

A numeral without point and exponent that fits 64 bits is a whole number. Any
other is a double, and not always the nearest one: the digits are gathered in
a 64-bit significand, those that no longer fit are dropped, and the
significand is scaled by a power of ten in floating point. A numeral whose
double would be infinite is no numeral.
-/

namespace Colloquy.Json

/-- Whether a character is a decimal digit. -/
def isDigit (c : Char) : Bool :=
  '0' ≤ c && c ≤ '9'

/-- The value of a decimal digit. -/
def digitValue (c : Char) : Nat :=
  c.toNat - 48

/-- The leading digits of a text, and what follows them. -/
def splitDigits (s : List Char) : List Char × List Char :=
  (s.takeWhile isDigit, s.dropWhile isDigit)

/-- Appends digits to a significand as long as 64 bits hold it; the second
part counts the digits taken. -/
def gather (significand taken : Nat) : List Char → Nat × Nat
  | [] => (significand, taken)
  | c :: rest =>
    let next := significand * 10 + digitValue c
    if next < Nat.pow 2 64 then gather next (taken + 1) rest else (significand, taken)

/-- A double times a power of ten, through steps of at most 308 places;
nothing when it becomes infinite. -/
def scale (x : Float) (exponent : Int) : Nat → Option Float
  | 0 => some x
  | fuel + 1 =>
    if exponent.natAbs ≤ 308 then
      let power := Number.nearest false 1 exponent.natAbs
      if 0 ≤ exponent then
        let y := x * power
        if y.isInf then none else some y
      else some (x / power)
    else if x == 0.0 then some x
    else if 0 ≤ exponent then none
    else scale (x / Number.nearest false 1 308) (exponent + 308) fuel

/-- The double of a significand with a decimal exponent. -/
def ofParts (negative : Bool) (significand : Nat) (exponent : Int) : Option Float :=
  (scale (UInt64.ofNat significand).toFloat exponent 8).map fun x => if negative then -x else x

/-- The exponent after its letter: its sign, its digits and what follows. -/
def exponentPart? : List Char → Option (Bool × List Char × List Char)
  | s =>
    let (negative, s) :=
      match s with
      | '+' :: rest => (false, rest)
      | '-' :: rest => (true, rest)
      | s => (false, s)
    match splitDigits s with
    | ([], _) => none
    | (digits, rest) => some (negative, digits, rest)

/-- The largest exponent that is counted. -/
def exponentLimit : Int := (Nat.pow 2 31 : Int) - 1

/-- A sum of exponents, kept within 32 bits. -/
def clampExponent (e : Int) : Int :=
  max (-(Nat.pow 2 31 : Int)) (min exponentLimit e)

/-- The double of a significand whose decimal exponent is `base` changed by a
written exponent. -/
def withExponent (negative : Bool) (significand : Nat) (base : Int) (below : Bool)
    (digits : List Char) : Option Float :=
  let power : Int := digits.foldl (fun n c => n * 10 + digitValue c) (0 : Nat)
  if exponentLimit < power then
    if significand ≠ 0 && !below then none
    else some (if negative then -0.0 else 0.0)
  else ofParts negative significand (clampExponent (if below then base - power else base + power))

/-- A numeral behind its sign, and what follows it. -/
def numeral? (negative : Bool) (s : List Char) : Option (Json × List Char) :=
  let (whole, rest) := splitDigits s
  if whole.isEmpty || (whole.head? = some '0' && 1 < whole.length) then none
  else
    let (significand, taken) := gather 0 0 whole
    let dropped := whole.length - taken
    match rest with
    | '.' :: rest =>
      let (places, rest) := splitDigits rest
      if places.isEmpty then none
      else
        let (significand, kept) := gather significand 0 places
        let base : Int := (dropped : Int) - kept
        match rest with
        | c :: more =>
          if c = 'e' || c = 'E' then
            (exponentPart? more).bind fun (below, digits, rest) =>
              (withExponent negative significand base below digits).map fun x => (.float x, rest)
          else (ofParts negative significand base).map fun x => (.float x, c :: more)
        | [] => (ofParts negative significand base).map fun x => (.float x, [])
    | rest =>
      let simple : Option (Json × List Char) :=
        if dropped ≠ 0 then (ofParts negative significand dropped).map fun x => (.float x, rest)
        else if !negative then some (.int significand, rest)
        else if significand = 0 then some (.float (-0.0), rest)
        else if significand ≤ Nat.pow 2 63 then some (.int (-significand), rest)
        else some (.float (-(UInt64.ofNat significand).toFloat), rest)
      match rest with
      | c :: more =>
        if c = 'e' || c = 'E' then
          (exponentPart? more).bind fun (below, digits, rest) =>
            (withExponent negative significand dropped below digits).map fun x => (.float x, rest)
        else simple
      | [] => simple

/-- What follows a numeral that is passed over: its form is checked and its
size is not. -/
def skipNumeral? (s : List Char) : Option (List Char) :=
  let (whole, rest) := splitDigits s
  if whole.isEmpty || (whole.head? = some '0' && 1 < whole.length) then none
  else
    let afterPoint : Option (List Char) :=
      match rest with
      | '.' :: rest =>
        let (places, rest) := splitDigits rest
        if places.isEmpty then none else some rest
      | rest => some rest
    afterPoint.bind fun rest =>
      match rest with
      | c :: more =>
        if c = 'e' || c = 'E' then (exponentPart? more).map fun (_, _, rest) => rest
        else some rest
      | [] => some []

end Colloquy.Json
