import Colloquy.Cipher.Octets
import Colloquy.Cipher.Sha256
/-!
# Octets from a seed

Any number of octets for each of any number of draws, all from one secret
seed: the digests of the seed with the numbers of the draw and of the block.
-/

namespace Colloquy.Seed

/-- A block of 32 octets of a draw. -/
def block (seed : List UInt8) (draw index : Nat) : List UInt8 :=
  Sha256.digest (seed ++ Octets.ofNumber 8 draw ++ Octets.ofNumber 8 index)

/-- The octet at a position of a draw. -/
def octet (seed : List UInt8) (draw position : Nat) : UInt8 :=
  (block seed draw (position / 32)).getD (position % 32) 0

end Colloquy.Seed
