/-!
# UTF-8

The bytes of a text, and the text of bytes. Reading is strict: an overlong
form, a surrogate, a code point past U+10FFFF or a byte that continues
nothing makes the whole text unreadable.
-/

namespace Colloquy.Text.Utf8

/-- The octets of one character. -/
def encodeChar (c : Char) : List UInt8 :=
  let n := c.toNat
  if n < 0x80 then [UInt8.ofNat n]
  else if n < 0x800 then [UInt8.ofNat (0xC0 + n / 64), UInt8.ofNat (0x80 + n % 64)]
  else if n < 0x10000 then
    [UInt8.ofNat (0xE0 + n / 4096), UInt8.ofNat (0x80 + n / 64 % 64), UInt8.ofNat (0x80 + n % 64)]
  else
    [UInt8.ofNat (0xF0 + n / 262144), UInt8.ofNat (0x80 + n / 4096 % 64),
      UInt8.ofNat (0x80 + n / 64 % 64), UInt8.ofNat (0x80 + n % 64)]

/-- The octets of a text. -/
def encodeChars (s : List Char) : List UInt8 :=
  s.flatMap encodeChar

/-- The octets of a text. -/
def encode (s : String) : List UInt8 :=
  encodeChars s.toList

/-- Whether an octet continues a character. -/
def isTail (b : UInt8) : Bool :=
  0x80 ≤ b && b ≤ 0xBF

/-- The six bits that a continuing octet carries. -/
def tailBits (b : UInt8) : Nat :=
  b.toNat % 64

/-- The characters of a sequence of octets, when it is well formed. -/
def decodeChars : List UInt8 → Option (List Char)
  | [] => some []
  | a :: rest =>
    if a < 0x80 then (decodeChars rest).map (Char.ofNat a.toNat :: ·)
    else if a < 0xC2 then none
    else
      match rest with
      | [] => none
      | b :: rest =>
        if !isTail b then none
        else if a < 0xE0 then
          (decodeChars rest).map (Char.ofNat (a.toNat % 32 * 64 + tailBits b) :: ·)
        else
          match rest with
          | [] => none
          | c :: rest =>
            if !isTail c then none
            else if a < 0xF0 then
              let n := a.toNat % 16 * 4096 + tailBits b * 64 + tailBits c
              if n < 0x800 || (0xD800 ≤ n && n ≤ 0xDFFF) then none
              else (decodeChars rest).map (Char.ofNat n :: ·)
            else
              match rest with
              | [] => none
              | d :: rest =>
                let n := a.toNat % 8 * 262144 + tailBits b * 4096 + tailBits c * 64 + tailBits d
                if !isTail d || 0xF5 ≤ a || n < 0x10000 || 0x10FFFF < n then none
                else (decodeChars rest).map (Char.ofNat n :: ·)

/-- The text of a sequence of octets, when it is well formed. -/
def decode? (bytes : List UInt8) : Option String :=
  (decodeChars bytes).map String.ofList

/-- The order of texts by their octets: a text comes first when it is the
start of the other, or has the smaller octet where they first differ. That is
the order of their characters, code point by code point. -/
def precedes : List Char → List Char → Bool
  | _, [] => false
  | [], _ :: _ => true
  | a :: s, b :: t => if a = b then precedes s t else a.toNat < b.toNat

end Colloquy.Text.Utf8
