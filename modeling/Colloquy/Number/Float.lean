import Colloquy.Number.Shortest
/-!
# Floating-point values at the edges of the program

Decimal text to the nearest double, the plain and scientific text of a
double. `plainText` writes the fewest digits that read back, positionally for
the scientific exponents from -5 to 15 and with a signed exponent outside of
them.
-/

namespace Colloquy.Number

/-- The number of decimal digits of a natural number; zero has one. -/
def digitCount (n : Nat) : Nat :=
  (Nat.toDigits 10 n).length

/-- The double nearest to `digits · 10 ^ exponent`; past the largest double it
is infinite, and below the smallest it is zero. -/
def nearest (negative : Bool) (digits : Nat) (exponent : Int) : Float :=
  let size : Int := digitCount digits + exponent
  let x : Float :=
    if digits = 0 then 0.0
    else if 400 < size then 1.0 / 0.0
    else if size < -400 then 0.0
    else Float.ofScientific digits (exponent < 0) exponent.natAbs
  if negative then -x else x

/-- A whole number as a double. -/
def ofInt (n : Int) : Float :=
  nearest (n < 0) n.natAbs 0

/-- A whole number as a single. -/
def singleOfInt (n : Int) : Float32 :=
  match n with
  | .ofNat k => (UInt64.ofNat k).toFloat32
  | .negSucc k => -(UInt64.ofNat (k + 1)).toFloat32

/-- Digits with the point after the first `point` of them. -/
def positional (digits : List Char) (point : Int) : List Char :=
  let count : Int := digits.length
  if count ≤ point then digits ++ List.replicate (point - count).toNat '0' ++ ['.', '0']
  else if 0 < point then digits.take point.toNat ++ '.' :: digits.drop point.toNat
  else '0' :: '.' :: (List.replicate (-point).toNat '0' ++ digits)

/-- The digits with a signed exponent, and a point after the first of them when
there are more. -/
def scientific (digits : List Char) (point : Int) : List Char :=
  let power := (if 0 < point then ['+'] else []) ++ (toString (point - 1)).toList
  match digits with
  | [] => 'e' :: power
  | [d] => d :: 'e' :: power
  | d :: rest => d :: '.' :: (rest ++ 'e' :: power)

/-- The text of a finite double. -/
def plainText (x : Float) : String :=
  let bits := x.toBits.toNat
  let magnitude := bits % Nat.pow 2 63
  let body :=
    if magnitude = 0 then ['0', '.', '0']
    else
      let d := shortest magnitude
      let digits := Nat.toDigits 10 d.digits
      let point : Int := digits.length + d.exponent
      if -5 < point && point ≤ 16 then positional digits point else scientific digits point
  String.ofList (if Nat.pow 2 63 ≤ bits then '-' :: body else body)

end Colloquy.Number
