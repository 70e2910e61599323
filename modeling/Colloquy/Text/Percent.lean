import Colloquy.Text.Hex
import Colloquy.Text.Utf8
/-!
# Percent escapes

An octet may be written as a percent sign and two digits. A percent sign
without two digits behind it stands for itself.
-/

namespace Colloquy.Text.Percent

/-- The octets that escaped octets stand for. -/
def octets : List UInt8 → List UInt8
  | [] => []
  | [a] => [a]
  | [a, b] => [a, b]
  | a :: b :: c :: rest =>
    let digit? (o : UInt8) : Option Nat := Hex.digitValue? (Char.ofNat o.toNat)
    match (if a = 37 then digit? b else none), digit? c with
    | some high, some low => UInt8.ofNat (high * 16 + low) :: octets rest
    | _, _ => a :: octets (b :: c :: rest)

/-- The text that an escaped text stands for, if it is one. -/
def decode? (text : String) : Option String :=
  Utf8.decode? (octets (Utf8.encode text))

end Colloquy.Text.Percent
