import Colloquy.Text.Blank
import Colloquy.Text.Hex
/-!
# Universally unique identifiers

Sixteen bytes. Reading takes 32 digits, alone or with hyphens after the 8th,
12th, 16th and 20th, the hyphenated form in braces or behind `urn:uuid:`, in
either case of the digits. Writing gives the hyphenated form in small letters.
-/

namespace Colloquy.Uuid

/-- The digits of a hyphenated form, when its hyphens stand where they must. -/
def unhyphenate? (s : List Char) : Option (List Char) :=
  if s.length = 36 && s[8]? = some '-' && s[13]? = some '-' && s[18]? = some '-' &&
      s[23]? = some '-' then
    some (s.take 8 ++ (s.drop 9).take 4 ++ (s.drop 14).take 4 ++ (s.drop 19).take 4 ++ s.drop 24)
  else none

/-- The 32 digits of any of the accepted forms. -/
def digits? (s : List Char) : Option (List Char) :=
  match s.length with
  | 32 => some s
  | 36 => unhyphenate? s
  | 38 =>
    if s.head? = some '\x7b' && s.getLast? = some '\x7d' then
      unhyphenate? ((s.drop 1).take 36)
    else none
  | 45 => (Text.afterPrefix? "urn:uuid:".toList s).bind unhyphenate?
  | _ => none

/-- The hyphenated form of sixteen bytes. -/
def hyphenated (bytes : List UInt8) : String :=
  let d := Text.Hex.encodeChars bytes
  String.ofList (d.take 8 ++ '-' :: (d.drop 8).take 4 ++ '-' :: (d.drop 12).take 4 ++
    '-' :: (d.drop 16).take 4 ++ '-' :: d.drop 20)

/-- The identifier of a text in lower-case hyphenated form. -/
def canonical? (text : String) : Option String := do
  let digits ← digits? text.toList
  let bytes ← Text.Hex.decodeChars digits
  some (hyphenated bytes)

/-- An identifier that begins with a time, in milliseconds since 1970, and
ends with ten random bytes; it says so in its version and its variant. -/
def ofTime (ms : Nat) (random : List UInt8) : String :=
  let time := (List.range 6).map fun i => UInt8.ofNat (ms / Nat.pow 256 (5 - i))
  let marked := random.mapIdx fun i b =>
    if i = 0 then b % 16 + 0x70 else if i = 2 then b % 64 + 0x80 else b
  hyphenated (time ++ marked)

end Colloquy.Uuid
