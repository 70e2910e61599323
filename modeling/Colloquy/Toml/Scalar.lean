import Colloquy.Json.Numeral
import Colloquy.Moment
import Colloquy.Text.Hex
import Colloquy.Toml.Value
/-!
# TOML scalars

Keys, texts, numbers and dates. Each function takes its token from the front
of a text and gives what follows it, or nothing when no token stands there.
Lines end with a line feed, or with a carriage return and a line feed; a
carriage return alone stands nowhere.
-/

namespace Colloquy.Toml

open Colloquy.Json (isDigit digitValue splitDigits)

/-- A blank within a line. -/
def isSpace (c : Char) : Bool := c = ' ' || c = '\t'

/-- A text without the blanks it starts with. -/
def skipSpace (s : List Char) : List Char := s.dropWhile isSpace

/-- What follows a line end. -/
def lineEnd? : List Char → Option (List Char)
  | '\n' :: rest => some rest
  | '\r' :: '\n' :: rest => some rest
  | _ => none

/-- A character that a comment may hold, and a literal text but for its
quote. -/
def isPrintable (c : Char) : Bool :=
  c = '\t' || (32 ≤ c.toNat && c.toNat ≤ 126) || 128 ≤ c.toNat

/-- A text without the comment it starts with. -/
def skipComment : List Char → List Char
  | '#' :: rest => rest.dropWhile isPrintable
  | s => s

/-- A text without the blanks, comments and line ends it starts with. -/
def skipLines : Nat → List Char → List Char
  | 0, s => s
  | fuel + 1, s =>
    let s := skipSpace s
    match lineEnd? (skipComment s) with
    | some rest => skipLines fuel rest
    | none => s

/-- What follows the blanks, the comment and the end of a line. -/
def endOfLine? (s : List Char) : Option (List Char) :=
  match skipComment (skipSpace s) with
  | [] => some []
  | s => lineEnd? s

/-- The value of hexadecimal digits. -/
def hexValue? (digits : List Char) : Option Nat :=
  digits.foldl (fun acc c =>
    match acc, Text.Hex.digitValue? c with
    | some n, some d => some (n * 16 + d)
    | _, _ => none) (some 0)

/-- The character of a code point, when it has one. -/
def scalar? (n : Nat) : Option Char :=
  if n < 0xD800 || (0xDFFF < n && n ≤ 0x10FFFF) then some (Char.ofNat n) else none

/-- The character behind a backslash. -/
def escape? : List Char → Option (Char × List Char)
  | [] => none
  | c :: rest =>
    if c = '"' || c = '\\' then some (c, rest)
    else if c = 'b' then some (Char.ofNat 8, rest)
    else if c = 't' then some ('\t', rest)
    else if c = 'n' then some ('\n', rest)
    else if c = 'f' then some (Char.ofNat 12, rest)
    else if c = 'r' then some ('\r', rest)
    else if c = 'u' || c = 'U' then
      let count := if c = 'u' then 4 else 8
      let digits := rest.take count
      if digits.length < count then none
      else do
        let n ← hexValue? digits
        let c ← scalar? n
        some (c, rest.drop count)
    else none

/-- A text up to its double quote. -/
def basicBody? : Nat → List Char → Option (List Char × List Char)
  | 0, _ => none
  | _ + 1, [] => none
  | fuel + 1, c :: rest =>
    if c = '"' then some ([], rest)
    else if c = '\\' then do
      let (c, rest) ← escape? rest
      let (s, rest) ← basicBody? fuel rest
      some (c :: s, rest)
    else if isPrintable c then do
      let (s, rest) ← basicBody? fuel rest
      some (c :: s, rest)
    else none

/-- A text up to its single quote. -/
def literalBody? : List Char → Option (List Char × List Char)
  | [] => none
  | c :: rest =>
    if c = '\'' then some ([], rest)
    else if isPrintable c then (literalBody? rest).map fun (s, rest) => (c :: s, rest)
    else none

/-- The quotes that end a text of several lines: three, behind two at most
that belong to it. -/
def closing? (quote : Char) (s : List Char) : Option (List Char × List Char) :=
  let run := (s.takeWhile (· = quote)).length
  if run < 3 then none
  else
    let kept := min (run - 3) 2
    some (List.replicate kept quote, s.drop (kept + 3))

/-- A text without the line end it starts with. -/
def skipLineEnd (s : List Char) : List Char := (lineEnd? s).getD s

/-- What follows a backslash at the end of a line: the next character that is
neither blank nor line end. -/
def joinLines? (s : List Char) : Option (List Char) :=
  (lineEnd? (skipSpace s)).map (skipBlanks s.length)
where
  skipBlanks : Nat → List Char → List Char
    | 0, s => s
    | fuel + 1, s =>
      let s := skipSpace s
      match lineEnd? s with
      | some rest => skipBlanks fuel rest
      | none => s

/-- A text of several lines up to its quotes; `escapes` says whether a
backslash has a meaning. -/
def linesBody? (quote : Char) (escapes : Bool) : Nat → List Char → Option (List Char × List Char)
  | 0, _ => none
  | _ + 1, [] => none
  | fuel + 1, c :: rest =>
    if c = quote then
      match closing? quote (c :: rest) with
      | some r => some r
      | none => (linesBody? quote escapes fuel rest).map fun (s, rest) => (c :: s, rest)
    else if escapes && c = '\\' then
      match joinLines? rest with
      | some rest => linesBody? quote escapes fuel rest
      | none => do
        let (c, rest) ← escape? rest
        let (s, rest) ← linesBody? quote escapes fuel rest
        some (c :: s, rest)
    else
      match lineEnd? (c :: rest) with
      | some rest => (linesBody? quote escapes fuel rest).map fun (s, rest) => ('\n' :: s, rest)
      | none =>
        if isPrintable c then
          (linesBody? quote escapes fuel rest).map fun (s, rest) => (c :: s, rest)
        else none

/-- A text of any of the four forms. -/
def text? (s : List Char) : Option (List Char × List Char) :=
  match s with
  | '"' :: '"' :: '"' :: rest => linesBody? '"' true (rest.length + 1) (skipLineEnd rest)
  | '\'' :: '\'' :: '\'' :: rest => linesBody? '\'' false (rest.length + 1) (skipLineEnd rest)
  | '"' :: rest => basicBody? (rest.length + 1) rest
  | '\'' :: rest => literalBody? rest
  | _ => none

/-- A character of a key without quotes. -/
def isBare (c : Char) : Bool :=
  c.isAlphanum || c = '_' || c = '-'

/-- One part of a key. -/
def keyPart? (s : List Char) : Option (String × List Char) :=
  match s with
  | '"' :: rest => (basicBody? (rest.length + 1) rest).map fun (k, rest) => (String.ofList k, rest)
  | '\'' :: rest => (literalBody? rest).map fun (k, rest) => (String.ofList k, rest)
  | s =>
    let bare := s.takeWhile isBare
    if bare.isEmpty then none else some (String.ofList bare, s.dropWhile isBare)

/-- The largest number of parts of a key. -/
def keyLimit : Nat := 79

/-- The parts of a key between dots, with blanks around each. -/
def keyParts? : Nat → List Char → Option (List String × List Char)
  | 0, _ => none
  | fuel + 1, s => do
    let (part, rest) ← keyPart? (skipSpace s)
    match skipSpace rest with
    | '.' :: rest =>
      let (parts, rest) ← keyParts? fuel rest
      some (part :: parts, rest)
    | rest => some ([part], rest)

/-- A key. -/
def key? (s : List Char) : Option (List String × List Char) :=
  keyParts? keyLimit s

/-- Digits of a base, with single underscores between them; the underscores
are left out. -/
def grouped? (isDigitOf : Char → Bool) : List Char → Option (List Char × List Char)
  | [] => none
  | c :: rest =>
    if isDigitOf c then
      match rest with
      | '_' :: more =>
        match grouped? isDigitOf more with
        | some (digits, rest) => some (c :: digits, rest)
        | none => some ([c], rest)
      | rest =>
        match grouped? isDigitOf rest with
        | some (digits, rest) => some (c :: digits, rest)
        | none => some ([c], rest)
    else none

/-- The sign of a number, if it has one. -/
def sign (s : List Char) : Bool × List Char :=
  match s with
  | '+' :: rest => (false, rest)
  | '-' :: rest => (true, rest)
  | s => (false, s)

/-- A decimal whole number behind its sign: no zero stands before another
digit. -/
def decimal? (s : List Char) : Option (List Char × List Char) :=
  match s with
  | '0' :: rest => some (['0'], rest)
  | s => grouped? isDigit s

/-- The value of decimal digits. -/
def decimalValue (digits : List Char) : Nat :=
  digits.foldl (fun n c => n * 10 + digitValue c) 0

/-- A whole number that fits 64 bits with a sign. -/
def fitsWord (n : Int) : Bool := -(Nat.pow 2 63 : Int) ≤ n && n < (Nat.pow 2 63 : Int)

/-- A whole number of a base other than ten, behind its mark. -/
def based? (base : Nat) (s : List Char) : Option (Value × List Char) := do
  let inBase (c : Char) : Bool :=
    match Text.Hex.digitValue? c with
    | some d => d < base
    | none => false
  let (digits, rest) ← grouped? inBase s
  let n := digits.foldl (fun n c => n * base + (Text.Hex.digitValue? c).getD 0) 0
  if fitsWord n then some (.int n, rest) else none

/-- A whole number. -/
def integer? (s : List Char) : Option (Value × List Char) :=
  match s with
  | '0' :: 'x' :: rest => based? 16 rest
  | '0' :: 'o' :: rest => based? 8 rest
  | '0' :: 'b' :: rest => based? 2 rest
  | s => do
    let (negative, rest) := sign s
    let (digits, rest) ← decimal? rest
    let n : Int := decimalValue digits
    let n := if negative then -n else n
    if fitsWord n then some (.int n, rest) else none

/-- The exponent of a number, if there is one: its value and what follows. -/
def exponent? (s : List Char) : Option (Int × List Char) :=
  match s with
  | c :: rest =>
    if c = 'e' || c = 'E' then do
      let (negative, rest) := sign rest
      let (digits, rest) ← grouped? isDigit rest
      let n : Int := decimalValue digits
      some (if negative then -n else n, rest)
    else none
  | [] => none

/-- A number with a point or an exponent. Too large a number is refused unless
it is negative. -/
def float? (s : List Char) : Option (Value × List Char) := do
  let (negative, rest) := sign s
  let (whole, rest) ← decimal? rest
  let (digits, power, rest) ←
    match rest with
    | '.' :: rest => do
      let (places, rest) ← grouped? isDigit rest
      let (power, rest) := (exponent? rest).getD (0, rest)
      some (whole ++ places, power - places.length, rest)
    | rest => do
      let (power, rest) ← exponent? rest
      some (whole, power, rest)
  let x := Number.nearest negative (decimalValue digits) power
  if x.isInf && !negative then none else some (.float x, rest)

/-- Infinity and the number that is none. -/
def special? (s : List Char) : Option (Value × List Char) :=
  let (negative, s) := sign s
  match s with
  | 'i' :: 'n' :: 'f' :: rest => some (.float (if negative then -1.0 / 0.0 else 1.0 / 0.0), rest)
  | 'n' :: 'a' :: 'n' :: rest => some (.float (0.0 / 0.0), rest)
  | _ => none

/-- A number of exactly two digits up to a bound. -/
def twoDigits? (most : Nat) (s : List Char) : Option (Nat × List Char) := do
  let (n, rest) ← Moment.number? 2 2 s
  if n ≤ most then some (n, rest) else none

/-- A time of day. -/
def time? (s : List Char) : Option (List Char) := do
  let (_, s) ← twoDigits? 23 s
  let s ← Moment.character? ':' s
  let (_, s) ← twoDigits? 59 s
  let s ← Moment.character? ':' s
  let (_, s) ← twoDigits? 60 s
  match s with
  | '.' :: rest =>
    match splitDigits rest with
    | ([], _) => some s
    | (_, rest) => some rest
  | s => some s

/-- A calendar date. -/
def date? (s : List Char) : Option (List Char) := do
  let (year, s) ← Moment.number? 4 4 s
  let s ← Moment.character? '-' s
  let (month, s) ← twoDigits? 12 s
  let s ← Moment.character? '-' s
  let (day, s) ← twoDigits? 31 s
  if month = 0 || day = 0 || Moment.monthLength year month < day then none else some s

/-- An offset from universal time, if there is one. -/
def skipOffset? (s : List Char) : Option (List Char) :=
  match s with
  | c :: rest =>
    if c = 'Z' || c = 'z' then some rest
    else if c = '+' || c = '-' then do
      let (_, rest) ← twoDigits? 23 rest
      let rest ← Moment.character? ':' rest
      let (_, rest) ← twoDigits? 59 rest
      some rest
    else some s
  | [] => some []

/-- Whether a date, or a time, stands at the front: the digits before its
first mark. -/
def beginsMoment (s : List Char) : Bool :=
  let (digits, rest) := splitDigits s
  (digits.length = 4 && rest.head? = some '-') || (digits.length = 2 && rest.head? = some ':')

/-- A date, a time, or both. -/
def moment? (s : List Char) : Option (Value × List Char) :=
  match time? s with
  | some rest => some (.moment, rest)
  | none => do
    let rest ← date? s
    match rest with
    | c :: more =>
      if c = 'T' || c = 't' || (c = ' ' && beginsMoment more) then do
        let more ← time? more
        let more ← skipOffset? more
        some (.moment, more)
      else some (.moment, rest)
    | [] => some (.moment, [])

/-- A number, a date or a time. -/
def numberOrMoment? (s : List Char) : Option (Value × List Char) :=
  if beginsMoment s then moment? s
  else
    match float? s with
    | some r => some r
    | none =>
      match special? s with
      | some r => some r
      | none => integer? s

end Colloquy.Toml
