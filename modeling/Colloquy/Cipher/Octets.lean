/-!
# Numbers as bytes

The highest byte comes first.
-/

namespace Colloquy.Octets

/-- The number of a list of bytes. -/
def toNumber (bytes : List UInt8) : Nat :=
  bytes.foldl (fun n b => n * 256 + b.toNat) 0

/-- The lowest bytes of a number, as many as are asked for. -/
def ofNumber (count n : Nat) : List UInt8 :=
  (List.range count).reverse.map fun i => UInt8.ofNat (n / Nat.pow 256 i % 256)

end Colloquy.Octets
