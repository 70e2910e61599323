/-!
# Bytes as hexadecimal text

Two digits a byte, the high one first. Writing uses the small letters;
reading takes either case.
-/

namespace Colloquy.Text.Hex

/-- The digit of a number below sixteen. -/
def digit (n : Nat) : Char :=
  if n < 10 then Char.ofNat (48 + n) else Char.ofNat (87 + n)

/-- The value of a digit of either case. -/
def digitValue? (c : Char) : Option Nat :=
  let n := c.toNat
  if 48 ≤ n && n ≤ 57 then some (n - 48)
  else if 97 ≤ n && n ≤ 102 then some (n - 87)
  else if 65 ≤ n && n ≤ 70 then some (n - 55)
  else none

/-- Two digits for each byte. -/
def encodeChars (bytes : List UInt8) : List Char :=
  bytes.flatMap fun b => [digit (b.toNat / 16), digit (b.toNat % 16)]

/-- Two digits for each byte. -/
def encode (bytes : List UInt8) : String :=
  String.ofList (encodeChars bytes)

/-- The bytes of a text of digit pairs. -/
def decodeChars : List Char → Option (List UInt8)
  | [] => some []
  | [_] => none
  | a :: b :: rest =>
    match digitValue? a, digitValue? b with
    | some hi, some lo => (decodeChars rest).map (UInt8.ofNat (16 * hi + lo) :: ·)
    | _, _ => none

/-- The bytes of a text of digit pairs. -/
def decode? (s : String) : Option (List UInt8) :=
  decodeChars s.toList

/-- A number as a given count of digits, the highest first. -/
def ofNat (width n : Nat) : String :=
  String.ofList ((List.range width).reverse.map fun i => digit (n / Nat.pow 16 i % 16))

end Colloquy.Text.Hex
