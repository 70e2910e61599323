import Colloquy.Proofs.Cipher.Base64
import Mathlib.Algebra.Group.Nat.Defs
/-!
# The encoding of RFC 4648

What base64 writes is the bits of the bytes, six to a symbol (`Written`). Bytes have
one written form: its length says how much padding it has, and its bits are those
of its symbols (`written_iff`).
-/

namespace Colloquy.Base64

/-- The lowest bits of a number, the highest of them first. -/
def bits : Nat → Nat → List Bool
  | 0, _ => []
  | k + 1, n => n.testBit k :: bits k n

theorem bits_mod {j k : Nat} (hjk : j ≤ k) (n : Nat) : bits j (n % 2 ^ k) = bits j n := by
  induction j with
  | zero => rfl
  | succ j ih =>
    rw [bits, bits, ih (Nat.le_of_succ_le hjk), Nat.testBit_mod_two_pow,
      decide_eq_true (Nat.lt_of_succ_le hjk), Bool.true_and]

theorem bits_add (j k n : Nat) : bits (j + k) n = bits j (n / 2 ^ k) ++ bits k n := by
  induction j with
  | zero => rw [Nat.zero_add, bits, List.nil_append]
  | succ j ih => rw [Nat.succ_add, bits, bits, ih, Nat.testBit_div_two_pow, List.cons_append]

/-- The bits of the two parts of a number, one behind the other. -/
theorem bits_append {j k n high low : Nat} (hhigh : n / 2 ^ k % 2 ^ j = high)
    (hlow : n % 2 ^ k = low) : bits j high ++ bits k low = bits (j + k) n := by
  rw [bits_add, ← hhigh, ← hlow, bits_mod (Nat.le_refl j), bits_mod (Nat.le_refl k)]

/-- **What RFC 4648 calls the encoding of bytes**: the bits of the bytes, six to a
symbol, with zeros behind the last bit and padding behind the last symbol, for the
symbols to stand in groups of four. -/
def Written (bytes text : List UInt8) : Prop :=
  ∃ (values : List Nat) (pads : Nat), (∀ v ∈ values, v < 64) ∧ pads < 3 ∧ text.length % 4 = 0 ∧
    text = values.map symbol ++ List.replicate pads pad ∧
    values.flatMap (bits 6) =
      bytes.flatMap (fun b => bits 8 b.toNat) ++ List.replicate (2 * pads) false

/-! ## What is written -/

/-- Two symbols have the bits of one byte, and four zeros. -/
theorem bits_two {n : Nat} (hn : n < 256) :
    bits 6 (n / 4) ++ bits 6 (n % 4 * 16) = bits 8 n ++ List.replicate 4 false :=
  calc bits 6 (n / 4) ++ bits 6 (n % 4 * 16)
    _ = bits 12 (n * 16) := bits_append (by omega) (by omega)
    _ = bits 8 n ++ bits 4 0 := Eq.symm (bits_append (by omega) (by omega))

/-- Three symbols have the bits of two bytes, and two zeros. -/
theorem bits_three {a b : UInt8} {n : Nat} (hn : a.toNat * 256 + b.toNat = n) :
    bits 6 (n / 1024) ++ (bits 6 (n / 16 % 64) ++ bits 6 (n % 16 * 4)) =
      bits 8 a.toNat ++ bits 8 b.toNat ++ List.replicate 2 false := by
  have ha := a.toNat_lt
  have hb := b.toNat_lt
  have hlast : bits 6 (n / 16 % 64) ++ bits 6 (n % 16 * 4) = bits 12 (n % 1024 * 4) :=
    bits_append (by omega) (by omega)
  have hbytes : bits 8 a.toNat ++ bits 8 b.toNat = bits 16 n := bits_append (by omega) (by omega)
  calc bits 6 (n / 1024) ++ (bits 6 (n / 16 % 64) ++ bits 6 (n % 16 * 4))
    _ = bits 6 (n / 1024) ++ bits 12 (n % 1024 * 4) := by rw [hlast]
    _ = bits 18 (n * 4) := bits_append (by omega) (by omega)
    _ = bits 16 n ++ bits 2 0 := Eq.symm (bits_append (by omega) (by omega))
    _ = bits 8 a.toNat ++ bits 8 b.toNat ++ List.replicate 2 false := by rw [hbytes]; rfl

/-- Four symbols have the bits of three bytes. -/
theorem bits_four {a b c : UInt8} {n : Nat}
    (hn : a.toNat * 65536 + b.toNat * 256 + c.toNat = n) :
    bits 6 (n / 262144) ++ (bits 6 (n / 4096 % 64) ++ (bits 6 (n / 64 % 64) ++ bits 6 (n % 64))) =
      bits 8 a.toNat ++ (bits 8 b.toNat ++ bits 8 c.toNat) := by
  have ha := a.toNat_lt
  have hb := b.toNat_lt
  have hc := c.toNat_lt
  have hlast : bits 6 (n / 64 % 64) ++ bits 6 (n % 64) = bits 12 (n % 4096) :=
    bits_append (by omega) (by omega)
  have hmore : bits 6 (n / 4096 % 64) ++ bits 12 (n % 4096) = bits 18 (n % 262144) :=
    bits_append (by omega) (by omega)
  have hbytes : bits 8 b.toNat ++ bits 8 c.toNat = bits 16 (n % 65536) :=
    bits_append (by omega) (by omega)
  calc bits 6 (n / 262144) ++
        (bits 6 (n / 4096 % 64) ++ (bits 6 (n / 64 % 64) ++ bits 6 (n % 64)))
    _ = bits 6 (n / 262144) ++ bits 18 (n % 262144) := by rw [hlast, hmore]
    _ = bits 24 n := bits_append (by omega) (by omega)
    _ = bits 8 a.toNat ++ bits 16 (n % 65536) := Eq.symm (bits_append (by omega) (by omega))
    _ = bits 8 a.toNat ++ (bits 8 b.toNat ++ bits 8 c.toNat) := by rw [hbytes]

theorem written_encodeBytes (bytes : List UInt8) : Written bytes (encodeBytes bytes) := by
  fun_induction encodeBytes bytes with
  | case1 => exact ⟨[], 0, fun v hv => (List.not_mem_nil hv).elim, by decide, rfl, rfl, rfl⟩
  | case2 a n =>
    have ha := a.toNat_lt
    refine ⟨[n / 4, n % 4 * 16], 2, ?_, by decide, Nat.mod_self 4, rfl, ?_⟩
    · simp only [List.forall_mem_cons]
      exact ⟨by omega, by omega, fun v hv => (List.not_mem_nil hv).elim⟩
    · simp only [List.flatMap_cons, List.flatMap_nil, List.append_nil]
      exact bits_two ha
  | case3 a b n =>
    have ha := a.toNat_lt
    have hb := b.toNat_lt
    refine ⟨[n / 1024, n / 16 % 64, n % 16 * 4], 1, ?_, by decide, Nat.mod_self 4, rfl, ?_⟩
    · simp only [List.forall_mem_cons]
      exact ⟨by omega, by omega, by omega, fun v hv => (List.not_mem_nil hv).elim⟩
    · simp only [List.flatMap_cons, List.flatMap_nil, List.append_nil]
      exact bits_three rfl
  | case4 a b c rest n ih =>
    obtain ⟨hlead, -⟩ := bytes_of_symbols (rfl : _ = n)
    obtain ⟨values, pads, hvalues, hpads, hlength, htext, hbits⟩ := ih
    refine ⟨n / 262144 :: n / 4096 % 64 :: n / 64 % 64 :: n % 64 :: values, pads, ?_, hpads, ?_, ?_,
      ?_⟩
    · simp only [List.forall_mem_cons]
      exact ⟨hlead, by omega, by omega, by omega, hvalues⟩
    · simp only [List.length_cons]
      omega
    · simp only [List.map_cons, List.cons_append]
      rw [← htext]
    · simp only [List.flatMap_cons, hbits]
      simpa only [List.append_assoc] using congrArg (· ++ (rest.flatMap (fun b => bits 8 b.toNat) ++
        List.replicate (2 * pads) false)) (bits_four (rfl : _ = n))

/-! ## One written form -/

@[simp] theorem length_bits (k n : Nat) : (bits k n).length = k := by
  induction k with
  | zero => rfl
  | succ k ih => rw [bits, List.length_cons, ih]

theorem testBit_of_bits {k m n : Nat} (h : bits k m = bits k n) :
    ∀ j < k, m.testBit j = n.testBit j := by
  induction k with
  | zero => exact fun j hj => absurd hj (Nat.not_lt_zero j)
  | succ k ih =>
    obtain ⟨hfirst, hrest⟩ := List.cons.inj h
    intro j hj
    rcases Nat.lt_succ_iff_lt_or_eq.1 hj with hlow | rfl
    · exact ih hrest j hlow
    · exact hfirst

theorem eq_of_bits {m n : Nat} (hm : m < 64) (hn : n < 64) (h : bits 6 m = bits 6 n) : m = n := by
  refine Nat.eq_of_testBit_eq fun j => ?_
  by_cases hj : j < 6
  · exact testBit_of_bits h j hj
  · have hpow : 2 ^ 6 ≤ 2 ^ j := Nat.pow_le_pow_right (by decide) (Nat.not_lt.1 hj)
    rw [Nat.testBit_lt_two_pow (Nat.lt_of_lt_of_le hm hpow),
      Nat.testBit_lt_two_pow (Nat.lt_of_lt_of_le hn hpow)]

theorem length_flatMap_bits {α : Type} (k : Nat) (value : α → Nat) (s : List α) :
    (s.flatMap fun x => bits k (value x)).length = k * s.length := by
  induction s with
  | nil => rfl
  | cons x s ih =>
    rw [List.flatMap_cons, List.length_append, length_bits, ih, List.length_cons, Nat.mul_succ,
      Nat.add_comm]

theorem eq_of_flatMap_bits {values others : List Nat} (hvalues : ∀ v ∈ values, v < 64)
    (hothers : ∀ v ∈ others, v < 64) (h : values.flatMap (bits 6) = others.flatMap (bits 6)) :
    values = others := by
  induction values generalizing others with
  | nil =>
    cases others with
    | nil => rfl
    | cons o others => cases h
  | cons v values ih =>
    cases others with
    | nil => cases h
    | cons o others =>
      rw [List.flatMap_cons, List.flatMap_cons] at h
      obtain ⟨hfirst, hrest⟩ := List.append_inj h ((length_bits 6 v).trans (length_bits 6 o).symm)
      rw [eq_of_bits (hvalues v (.head _)) (hothers o (.head _)) hfirst,
        ih (fun v hv => hvalues v (.tail _ hv)) (fun v hv => hothers v (.tail _ hv)) hrest]

/-- **Bytes have one written form.** -/
theorem written_iff (bytes text : List UInt8) : Written bytes text ↔ text = encodeBytes bytes := by
  refine ⟨fun h => ?_, fun h => h ▸ written_encodeBytes bytes⟩
  obtain ⟨values, pads, hvalues, hpads, hgroups, htext, hbits⟩ := h
  obtain ⟨others, pads', hothers, hpads', hgroups', htext', hbits'⟩ := written_encodeBytes bytes
  have hsix : ∀ s : List Nat, (s.flatMap (bits 6)).length = 6 * s.length :=
    length_flatMap_bits 6 id
  have hlength := congrArg List.length hbits
  have hlength' := congrArg List.length hbits'
  rw [htext] at hgroups
  rw [htext'] at hgroups'
  simp only [List.length_append, List.length_map, List.length_replicate, length_flatMap_bits, hsix]
    at hlength hlength' hgroups hgroups'
  obtain rfl : pads = pads' := by omega
  rw [htext, htext', eq_of_flatMap_bits hvalues hothers (hbits.trans hbits'.symm)]

end Colloquy.Base64
