import Colloquy.Text.Blank
/-!
# Moments in universal time

A moment is a day, counted from 1970-01-01 in the Gregorian calendar, a
second of that day and a part of the second. A leap second is the second
before it with a part of one second or more. Two readers take RFC 3339 text:
`ofStrict?` in its exact form, and `ofRelaxed?` with spaces between the parts,
shorter numbers and `UTC` for the offset. `text` writes it with as few of 0,
3, 6 or 9 fraction digits as it needs.
-/

namespace Colloquy

/-- A moment in universal time. -/
structure Moment where
  /-- Days since 1970-01-01. -/
  day : Int
  /-- The second of the day. -/
  second : Nat
  /-- Nanoseconds since that second began; past 10⁹ in a leap second. -/
  nano : Nat
deriving DecidableEq, Repr

namespace Moment

/-- Whether a year has a February of 29 days. -/
def isLeap (year : Int) : Bool :=
  (year % 4 = 0 && year % 100 ≠ 0) || year % 400 = 0

/-- The number of days in a month. -/
def monthLength (year : Int) (month : Nat) : Nat :=
  match month with
  | 2 => if isLeap year then 29 else 28
  | 4 | 6 | 9 | 11 => 30
  | _ => 31

/-- The day number of a date. -/
def dayNumber (year : Int) (month day : Nat) : Int :=
  let y := if month ≤ 2 then year - 1 else year
  let era := y.fdiv 400
  let yearOfEra := y - era * 400
  let m : Int := if 2 < month then (month : Int) - 3 else (month : Int) + 9
  let dayOfYear := (153 * m + 2) / 5 + (day : Int) - 1
  era * 146097 + yearOfEra * 365 + yearOfEra / 4 - yearOfEra / 100 + dayOfYear - 719468

/-- The date of a day number: year, month and day. -/
def dateOf (number : Int) : Int × Nat × Nat :=
  let z := number + 719468
  let era := z.fdiv 146097
  let dayOfEra := z - era * 146097
  let yearOfEra := (dayOfEra - dayOfEra / 1460 + dayOfEra / 36524 - dayOfEra / 146096) / 365
  let dayOfYear := dayOfEra - (365 * yearOfEra + yearOfEra / 4 - yearOfEra / 100)
  let m := (5 * dayOfYear + 2) / 153
  let day := (dayOfYear - (153 * m + 2) / 5 + 1).toNat
  let month := (if m < 10 then m + 3 else m - 9).toNat
  let year := yearOfEra + era * 400
  (if month ≤ 2 then year + 1 else year, month, day)

/-- The moment of a date and a time of day at an offset, in seconds, from
universal time. -/
def ofLocal? (year : Int) (month day hour minute second nano : Nat) (offset : Int) :
    Option Moment :=
  if year < -262143 || 262142 < year || month = 0 || 12 < month || day = 0 ||
      monthLength year month < day || 23 < hour || 59 < minute || 60 < second ||
      86400 ≤ offset.natAbs then
    none
  else
    let whole := if second = 60 then 59 else second
    let part := if second = 60 then nano + 1000000000 else nano
    let time : Int := (hour * 3600 + minute * 60 + whole : Nat) - offset
    some ⟨dayNumber year month day + time.fdiv 86400, (time.fmod 86400).toNat, part⟩

/-- The value of some digits. -/
def digitsValue (digits : List Char) : Nat :=
  digits.foldl (fun n c => n * 10 + (c.toNat - 48)) 0

/-- Takes at least `least` and at most `most` digits. -/
def number? (least most : Nat) (s : List Char) : Option (Nat × List Char) :=
  let digits := (s.takeWhile fun c => '0' ≤ c && c ≤ '9').take most
  if digits.length < least then none else some (digitsValue digits, s.drop digits.length)

/-- Takes one character. -/
def character? (c : Char) : List Char → Option (List Char)
  | [] => none
  | d :: rest => if c = d then some rest else none

/-- The nanoseconds of a fraction behind its point, of which the first nine
digits count. -/
def fraction? (s : List Char) : Option (Nat × List Char) :=
  let digits := s.takeWhile fun c => '0' ≤ c && c ≤ '9'
  if digits.isEmpty then none
  else
    let kept := digits.take 9
    some (digitsValue kept * Nat.pow 10 (9 - kept.length), s.drop digits.length)

/-- A fraction with its point, or none. -/
def optionalFraction? : List Char → Option (Nat × List Char)
  | '.' :: rest => fraction? rest
  | s => some (0, s)

/-- Hours and minutes of an offset around what may separate them. -/
def offset? (separator : List Char → Option (List Char)) (s : List Char) :
    Option (Int × List Char) :=
  match s with
  | [] => none
  | c :: rest =>
    if c = 'Z' || c = 'z' then some (0, rest)
    else if c = '+' || c = '-' || c = Char.ofNat 0x2212 then do
      let (hours, rest) ← number? 2 2 rest
      let rest ← separator rest
      let (minutes, rest) ← number? 2 2 rest
      if 59 < minutes then none
      else
        let seconds : Int := hours * 3600 + minutes * 60
        some (if c = '+' then seconds else -seconds, rest)
    else none

/-- A moment in the exact form of RFC 3339; `t`, `z` and a blank between date
and time are allowed. -/
def ofStrict? (text : String) : Option Moment := do
  let (year, s) ← number? 4 4 text.toList
  let s ← character? '-' s
  let (month, s) ← number? 2 2 s
  let s ← character? '-' s
  let (day, s) ← number? 2 2 s
  let s ← match s with
    | c :: rest => if c = 'T' || c = 't' || c = ' ' then some rest else none
    | [] => none
  let (hour, s) ← number? 2 2 s
  let s ← character? ':' s
  let (minute, s) ← number? 2 2 s
  let s ← character? ':' s
  let (second, s) ← number? 2 2 s
  let (nano, s) ← optionalFraction? s
  let (offset, s) ← offset? (character? ':') s
  if s.isEmpty then ofLocal? year month day hour minute second nano offset else none

/-- A year: four digits at most, or any number of them behind a sign. -/
def year? (s : List Char) : Option (Int × List Char) :=
  match s with
  | '-' :: rest => (number? 1 rest.length rest).map fun (n, rest) => (-(n : Int), rest)
  | '+' :: rest => (number? 1 rest.length rest).map fun (n, rest) => ((n : Int), rest)
  | s => (number? 1 4 s).map fun (n, rest) => ((n : Int), rest)

/-- A number of one or two digits behind any blanks. -/
def shortNumber? (s : List Char) : Option (Nat × List Char) :=
  number? 1 2 (Text.trimStart s)

/-- One character behind any blanks. -/
def spacedCharacter? (c : Char) (s : List Char) : Option (List Char) :=
  character? c (Text.trimStart s)

/-- An offset, or `UTC` in any case. -/
def relaxedOffset? (s : List Char) : Option (Int × List Char) :=
  match s with
  | a :: b :: c :: rest =>
    if a.toUpper = 'U' && b.toUpper = 'T' && c.toUpper = 'C' then some (0, rest)
    else offset? (fun s => some (s.dropWhile fun c => c = ':' || Text.isBlank c)) s
  | s => offset? (fun s => some (s.dropWhile fun c => c = ':' || Text.isBlank c)) s

/-- A moment in the loose form of RFC 3339. -/
def ofRelaxed? (text : String) : Option Moment := do
  let (year, s) ← year? (Text.trimStart text.toList)
  let s ← spacedCharacter? '-' s
  let (month, s) ← shortNumber? s
  let s ← spacedCharacter? '-' s
  let (day, s) ← shortNumber? s
  let s ← match s with
    | c :: rest => if c = 'T' || c = 't' || c = ' ' then some rest else none
    | [] => none
  let (hour, s) ← shortNumber? s
  let s ← spacedCharacter? ':' s
  let (minute, s) ← shortNumber? s
  let s ← spacedCharacter? ':' s
  let (second, s) ← shortNumber? s
  let (nano, s) ← optionalFraction? s
  let (offset, s) ← relaxedOffset? (Text.trimStart s)
  if s.isEmpty then ofLocal? year month day hour minute second nano offset else none

/-- The moment some milliseconds after the beginning of 1970. -/
def ofUnix (ms : Nat) : Moment :=
  ⟨(ms / 86400000 : Nat), ms / 1000 % 86400, ms % 1000 * 1000000⟩

/-- A number with leading zeros up to a width. -/
def padded (width n : Nat) : String :=
  let digits := Nat.toDigits 10 n
  String.ofList (List.replicate (width - digits.length) '0' ++ digits)

/-- A year: four digits, with its sign when they do not hold it. -/
def yearText (year : Int) : String :=
  if 0 ≤ year && year ≤ 9999 then padded 4 year.toNat
  else (if year < 0 then "-" else "+") ++ padded 4 year.natAbs

/-- The fraction of a second in groups of three digits. -/
def fractionText (nano : Nat) : String :=
  if nano = 0 then ""
  else if nano % 1000000 = 0 then "." ++ padded 3 (nano / 1000000)
  else if nano % 1000 = 0 then "." ++ padded 6 (nano / 1000)
  else "." ++ padded 9 nano

/-- The RFC 3339 text of a moment. -/
def text (m : Moment) : String :=
  let (year, month, day) := dateOf m.day
  let leap := 1000000000 ≤ m.nano
  let second := if leap then m.second % 60 + 1 else m.second % 60
  let nano := if leap then m.nano - 1000000000 else m.nano
  yearText year ++ "-" ++ padded 2 month ++ "-" ++ padded 2 day ++ "T" ++
    padded 2 (m.second / 3600) ++ ":" ++ padded 2 (m.second / 60 % 60) ++ ":" ++
    padded 2 second ++ fractionText nano ++ "Z"

/-- The date and the time to the minute. -/
def shortText (m : Moment) : String :=
  let (year, month, day) := dateOf m.day
  yearText year ++ "-" ++ padded 2 month ++ "-" ++ padded 2 day ++ " " ++
    padded 2 (m.second / 3600) ++ ":" ++ padded 2 (m.second / 60 % 60)

end Moment

end Colloquy
