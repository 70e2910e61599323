/-!
# Base64

The alphabet of RFC 4648 with its padding. Every byte string has one written
form, and reading takes no other: padding is needed, and the bits that the
last symbol has to spare are zero. The reasons for refusing a text say which
byte of it is at fault.
-/

namespace Colloquy.Base64

/-- Why a text is not the written form of bytes. -/
inductive Fault where
  /-- A byte that is no symbol, or padding where none belongs. -/
  | symbol (byte : UInt8) (offset : Nat)
  /-- One symbol is left over. -/
  | length (count : Nat)
  /-- The padding does not fill the last group. -/
  | padding
  /-- The last symbol has bits that belong to no byte. -/
  | lastSymbol (byte : UInt8) (offset : Nat)
deriving DecidableEq, Repr

/-- The wording of a fault. -/
def Fault.message : Fault → String
  | .symbol byte offset =>
    "Invalid symbol " ++ toString byte.toNat ++ ", offset " ++ toString offset ++ "."
  | .length count => "Invalid input length: " ++ toString count
  | .padding => "Invalid padding"
  | .lastSymbol byte offset =>
    "Invalid last symbol " ++ toString byte.toNat ++ ", offset " ++ toString offset ++ "."

/-- The padding byte. -/
def pad : UInt8 := 61

/-- The symbol of six bits. -/
def symbol (n : Nat) : UInt8 :=
  UInt8.ofNat (
    if n < 26 then 65 + n
    else if n < 52 then 71 + n
    else if n < 62 then n - 4
    else if n = 62 then 43
    else 47)

/-- The six bits of a symbol. -/
def value? (b : UInt8) : Option Nat :=
  let n := b.toNat
  if 65 ≤ n && n ≤ 90 then some (n - 65)
  else if 97 ≤ n && n ≤ 122 then some (n - 71)
  else if 48 ≤ n && n ≤ 57 then some (n + 4)
  else if n = 43 then some 62
  else if n = 47 then some 63
  else none

/-- The written form of bytes, as bytes. -/
def encodeBytes : List UInt8 → List UInt8
  | [] => []
  | [a] =>
    let n := a.toNat
    [symbol (n / 4), symbol (n % 4 * 16), pad, pad]
  | [a, b] =>
    let n := a.toNat * 256 + b.toNat
    [symbol (n / 1024), symbol (n / 16 % 64), symbol (n % 16 * 4), pad]
  | a :: b :: c :: rest =>
    let n := a.toNat * 65536 + b.toNat * 256 + c.toNat
    symbol (n / 262144) :: symbol (n / 4096 % 64) :: symbol (n / 64 % 64) :: symbol (n % 64) ::
      encodeBytes rest

/-- The written form of bytes. -/
def encode (bytes : List UInt8) : String :=
  String.ofList ((encodeBytes bytes).map fun b => Char.ofNat b.toNat)

/-- The six bits of the byte at an offset, which has to be a symbol. -/
def valueAt (byte : UInt8) (offset : Nat) : Except Fault Nat :=
  match value? byte with
  | some n => .ok n
  | none => .error (.symbol byte offset)

/-- The last group, of four bytes at most: its symbols in order, and how many
padding bytes follow them. Padding comes behind two symbols at the earliest,
and nothing comes behind padding. -/
def groupSymbols (start index : Nat) : List UInt8 → Except Fault (List (Nat × UInt8) × Nat)
  | [] => .ok ([], 0)
  | b :: rest =>
    if b = pad then
      if index < 2 then .error (.symbol pad (start + index))
      else if rest.all (· = pad) then .ok ([], rest.length + 1)
      else .error (.symbol pad (start + index))
    else do
      let n ← valueAt b (start + index)
      let (symbols, pads) ← groupSymbols start (index + 1) rest
      .ok ((n, b) :: symbols, pads)

/-- The bytes of the last group. -/
def lastGroup (start : Nat) (group : List UInt8) : Except Fault (List UInt8) := do
  let (symbols, pads) ← groupSymbols start 0 group
  if (pads + symbols.length) % 4 ≠ 0 && 2 ≤ symbols.length then .error .padding
  else
    match symbols with
    | [] => if group.isEmpty && start = 0 then .ok [] else .error (.length start)
    | [_] => .error (.length (start + 1))
    | [(a, _), (b, last)] =>
      if b % 16 = 0 then .ok [UInt8.ofNat (a * 4 + b / 16)]
      else .error (.lastSymbol last (start + 1))
    | [(a, _), (b, _), (c, last)] =>
      if c % 4 = 0 then
        .ok [UInt8.ofNat (a * 4 + b / 16), UInt8.ofNat (b % 16 * 16 + c / 4)]
      else .error (.lastSymbol last (start + 2))
    | (a, _) :: (b, _) :: (c, _) :: (d, _) :: _ =>
      .ok [UInt8.ofNat (a * 4 + b / 16), UInt8.ofNat (b % 16 * 16 + c / 4),
        UInt8.ofNat (c % 4 * 64 + d)]

/-- The bytes of the groups from an offset on. A group with more behind it
holds four symbols. -/
def groups (start : Nat) : List UInt8 → Except Fault (List UInt8)
  | a :: b :: c :: d :: e :: rest => do
    let w ← valueAt a start
    let x ← valueAt b (start + 1)
    let y ← valueAt c (start + 2)
    let z ← valueAt d (start + 3)
    let bytes ← groups (start + 4) (e :: rest)
    .ok (UInt8.ofNat (w * 4 + x / 16) :: UInt8.ofNat (x % 16 * 16 + y / 4) ::
      UInt8.ofNat (y % 4 * 64 + z) :: bytes)
  | group => lastGroup start group

/-- The bytes that a text is the written form of. A single byte behind the
last whole group is looked at first. -/
def decode (text : List UInt8) : Except Fault (List UInt8) :=
  match text.getLast? with
  | some last =>
    if text.length % 4 = 1 && last ≠ pad && (value? last).isNone then
      .error (.symbol last (text.length - 1))
    else groups 0 text
  | none => .ok []

end Colloquy.Base64
