/-!
# The shortest decimal of a double

A finite double is `mantissa · 2 ^ scale`. The decimals that read back to it
fill an interval around it, which holds its ends exactly when the mantissa is
even. `shortest` answers the nearest such decimal with the fewest digits. All
arithmetic is exact, on natural numbers.
-/

namespace Colloquy.Number

/-- A decimal `digits · 10 ^ exponent`. -/
structure Decimal where
  digits : Nat
  exponent : Int
deriving Repr, DecidableEq

/-- The interval of reals that round to a positive double, as numerators over
one denominator. -/
structure Interval where
  low : Nat
  mid : Nat
  high : Nat
  denominator : Nat
  closed : Bool

/-- Whether a numerator over the interval's denominator lies in it. -/
def Interval.holds (i : Interval) (n : Nat) : Bool :=
  if i.closed then i.low ≤ n && n ≤ i.high else i.low < n && n < i.high

/-- The same interval with every numerator, or the denominator, multiplied by
a power of ten: the reals divided by `10 ^ e`. -/
def Interval.shift (i : Interval) (e : Int) : Interval :=
  match e with
  | .ofNat k => { i with denominator := i.denominator * Nat.pow 10 k }
  | .negSucc k =>
    let t := Nat.pow 10 (k + 1)
    { i with low := i.low * t, mid := i.mid * t, high := i.high * t }

/-- The interval of a positive double given by its bits without the sign. -/
def Interval.ofBits (bits : Nat) : Interval :=
  let field : Nat := bits / Nat.pow 2 52
  let fraction : Nat := bits % Nat.pow 2 52
  let mantissa := if field = 0 then fraction else fraction + Nat.pow 2 52
  let scale : Int := (if field = 0 then 1 else (field : Int)) - 1077
  let below := if fraction = 0 && 1 < field then 1 else 2
  let up := Nat.pow 2 scale.toNat
  { low := (4 * mantissa - below) * up
    mid := 4 * mantissa * up
    high := (4 * mantissa + 2) * up
    denominator := Nat.pow 2 (-scale).toNat
    closed := mantissa % 2 = 0 }

/-- The point of the grid of whole numbers that lies in the interval and is
nearest to its middle. -/
def Interval.gridPoint? (i : Interval) : Option Nat :=
  let down := i.mid / i.denominator
  let lower := down * i.denominator
  let upper := lower + i.denominator
  let lowerIn := down ≠ 0 && i.holds lower
  let upperIn := i.holds upper
  if lowerIn && upperIn then
    let a := i.mid - lower
    let b := upper - i.mid
    some (if a < b || (a = b && down % 2 = 0) then down else down + 1)
  else if lowerIn then some down
  else if upperIn then some (down + 1)
  else none

/-- The first grid, coarsest first, that has a point in the interval. -/
def firstGrid (i : Interval) (e : Int) : Nat → Decimal
  | 0 => ⟨(i.shift e).gridPoint?.getD 0, e⟩
  | n + 1 =>
    match (i.shift e).gridPoint? with
    | some d => ⟨d, e⟩
    | none => firstGrid i (e - 1) n

/-- A decimal without the zeros its digits end in; zero keeps one digit. -/
def Decimal.stripZeros (d : Decimal) : Nat → Decimal
  | 0 => d
  | n + 1 =>
    if d.digits ≠ 0 && d.digits % 10 = 0 then
      Decimal.stripZeros ⟨d.digits / 10, d.exponent + 1⟩ n
    else d

/-- The shortest decimal that reads back as the positive double with the given
bits. -/
def shortest (bits : Nat) : Decimal :=
  let i := Interval.ofBits bits
  let field : Nat := bits / Nat.pow 2 52
  let top : Int := ((field : Int) - 1022) * 30103 / 100000 + 1
  (firstGrid i top 20).stripZeros 20

end Colloquy.Number
