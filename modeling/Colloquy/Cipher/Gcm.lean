import Colloquy.Cipher.Aes
import Colloquy.Cipher.Octets
/-!
# Galois/counter mode

Authenticated encryption of NIST SP 800-38D with AES-256, nonces of 12 bytes,
tags of 16 bytes and no associated data. `encrypt` gives ciphertext and tag, and
`decrypt?` gives the plaintext back exactly when the tag is the one that `encrypt`
would have made.
-/

namespace Colloquy.Gcm

open Octets (toNumber ofNumber)

/-- One step of the field product: `acc` gathers the multiples of `v` that the
bits of `x` select, from the highest of the bits that are left. -/
def multiplyFrom (x acc v : Nat) : Nat → Nat
  | 0 => acc
  | n + 1 =>
    let acc := if x.testBit n then acc ^^^ v else acc
    let v := if v.testBit 0 then (v >>> 1) ^^^ (0xe1 <<< 120) else v >>> 1
    multiplyFrom x acc v n

/-- The product in the field of 2¹²⁸ elements, whose bits are reflected. -/
def multiply (x y : Nat) : Nat :=
  multiplyFrom x 0 y 128

/-- The blocks of a text, the last one filled with zeros. -/
def blocks (text : List UInt8) : Nat → List (List UInt8)
  | 0 => []
  | n + 1 =>
    let block := text.take 16
    (block ++ List.replicate (16 - block.length) 0) :: blocks (text.drop 16) n

/-- The number of blocks that hold a text. -/
def blockCount (text : List UInt8) : Nat :=
  (text.length + 15) / 16

/-- The hash of a ciphertext under the hash key. -/
def hash (hashKey : Nat) (ciphertext : List UInt8) : Nat :=
  let body := (blocks ciphertext (blockCount ciphertext)).foldl
    (fun y b => multiply (y ^^^ toNumber b) hashKey) 0
  multiply (body ^^^ (8 * ciphertext.length)) hashKey

/-- The counter block of a nonce and a count. -/
def counterBlock (nonce : List UInt8) (count : Nat) : List UInt8 :=
  nonce ++ ofNumber 4 (count % Nat.pow 2 32)

/-- A text combined with the key stream that starts at a count. -/
def stream (keys : List (List UInt8)) (nonce : List UInt8) (count : Nat) (text : List UInt8) :
    Nat → List UInt8
  | 0 => []
  | n + 1 =>
    Aes.xor (text.take 16) (Aes.encryptBlock keys (counterBlock nonce count)) ++
      stream keys nonce (count + 1) (text.drop 16) n

/-- The text combined with the key stream of a nonce, which undoes itself. -/
def crypt (keys : List (List UInt8)) (nonce text : List UInt8) : List UInt8 :=
  stream keys nonce 2 text (blockCount text)

/-- The tag of a ciphertext. -/
def tag (keys : List (List UInt8)) (nonce ciphertext : List UInt8) : List UInt8 :=
  let hashKey := toNumber (Aes.encryptBlock keys (List.replicate 16 0))
  Aes.xor (Aes.encryptBlock keys (counterBlock nonce 1)) (ofNumber 16 (hash hashKey ciphertext))

/-- Ciphertext and tag of a plaintext. -/
def encrypt (key nonce plaintext : List UInt8) : List UInt8 :=
  let keys := Aes.roundKeys key
  let ciphertext := crypt keys nonce plaintext
  ciphertext ++ tag keys nonce ciphertext

/-- The plaintext of a sealed text whose tag is right. -/
def decrypt? (key nonce sealed : List UInt8) : Option (List UInt8) :=
  if sealed.length < 16 then none
  else
    let keys := Aes.roundKeys key
    let ciphertext := sealed.take (sealed.length - 16)
    if tag keys nonce ciphertext = sealed.drop (sealed.length - 16) then
      some (crypt keys nonce ciphertext)
    else none

end Colloquy.Gcm
