import Mathlib
/-!
# Doubles as whole numbers of the least double

A positive normal double has a mantissa of 53 bits, and is a whole number of
the least double there is (`NormalDouble.steps`). Comparison is that of these
numbers (`toFloat_le_iff`), and a conversion or a product gives a double that
is nearest to the exact result (`Nearest`): the bits that a shift drops leave
behind on which side of the middle they lie (`Halved`). An exact result below
the middle behind a double does not round past it, and one above that middle
does (`Nearest.le`, `Nearest.lt`).
-/

namespace Colloquy.Number

open Float.Model Float.Model.UnpackedFloat

/-! ## What is left of dropped bits -/

/-- What a mantissa with its residual bits stands for when `n` has been halved
`k` times: `n` is on it, in the lower half of the step behind it, in the middle
of that step, or in its upper half. -/
def Halved (n k : Nat) (em : ExtendedMantissa) : Prop :=
  match em.roundBit, em.stickyBit with
  | false, false => n = em.mantissa * 2 ^ k
  | false, true => em.mantissa * 2 ^ k < n ∧ 2 * n < 2 * (em.mantissa * 2 ^ k) + 2 ^ k
  | true, false => 2 * n = 2 * (em.mantissa * 2 ^ k) + 2 ^ k
  | true, true => 2 * (em.mantissa * 2 ^ k) + 2 ^ k < 2 * n ∧ n < em.mantissa * 2 ^ k + 2 ^ k

namespace Halved

variable {n k : Nat} {em : ExtendedMantissa}

theorem shiftRightOne (h : Halved n k em) : Halved n (k + 1) em.shiftRightOne := by
  obtain ⟨m, round, sticky⟩ := em
  have hpos : 0 < 2 ^ k := Nat.two_pow_pos k
  have hhalf : m * 2 ^ k = 2 * (m / 2 * 2 ^ k) + m % 2 * 2 ^ k := by
    conv_lhs => rw [← Nat.div_add_mod m 2]
    ring
  have hdouble : m / 2 * 2 ^ (k + 1) = 2 * (m / 2 * 2 ^ k) := by ring
  have hpow : 2 ^ (k + 1) = 2 * 2 ^ k := by ring
  rcases Nat.mod_two_eq_zero_or_one m with hbit | hbit <;> rw [hbit] at hhalf <;>
    cases round <;> cases sticky <;>
    simp only [Halved, ExtendedMantissa.shiftRightOne, hbit, Bool.or_self, Bool.or_true,
      Bool.or_false, bne_self_eq_false, show (1 != 0) = true from rfl] at h ⊢ <;>
    omega

theorem shiftRight (n k : Nat) :
    Halved n k (ExtendedMantissa.ofMantissaAndAccuracy n .exact >>> k) := by
  induction k with
  | zero => simp [Halved, HShiftRight.hShiftRight, Nat.repeat, ExtendedMantissa.ofMantissaAndAccuracy]
  | succ k ih => exact ih.shiftRightOne

/-- The mantissa is `n` rounded down. -/
theorem floor (h : Halved n k em) :
    em.mantissa * 2 ^ k ≤ n ∧ n < em.mantissa * 2 ^ k + 2 ^ k := by
  obtain ⟨m, round, sticky⟩ := em
  have hpos : 0 < 2 ^ k := Nat.two_pow_pos k
  cases round <;> cases sticky <;> simp only [Halved] at h ⊢ <;> omega

/-- The rounded mantissa is the one below or the one above. -/
theorem rounded_eq (em : ExtendedMantissa) :
    em.roundedMantissa = em.mantissa ∨ em.roundedMantissa = em.mantissa + 1 := by
  obtain ⟨m, round, sticky⟩ := em
  cases round <;> cases sticky
  · exact .inl rfl
  · exact .inl rfl
  · rcases Nat.mod_two_eq_zero_or_one m with hbit | hbit
    · exact .inl (by rw [ExtendedMantissa.roundedMantissa]; exact congrArg (m + ·) hbit)
    · exact .inr (by rw [ExtendedMantissa.roundedMantissa]; exact congrArg (m + ·) hbit)
  · exact .inr rfl

/-- **The rounded mantissa is at most half a step away.** -/
theorem rounded (h : Halved n k em) :
    2 * n ≤ 2 * (em.roundedMantissa * 2 ^ k) + 2 ^ k ∧
      2 * (em.roundedMantissa * 2 ^ k) ≤ 2 * n + 2 ^ k := by
  obtain ⟨m, round, sticky⟩ := em
  have hpos : 0 < 2 ^ k := Nat.two_pow_pos k
  have hup : (m + 1) * 2 ^ k = m * 2 ^ k + 2 ^ k := by ring
  cases round <;> cases sticky <;>
    simp only [Halved, ExtendedMantissa.roundedMantissa, ExtendedMantissa.accuracy,
      Accuracy.roundToNearestEven] at h ⊢
  · omega
  · omega
  · rcases Nat.mod_two_eq_zero_or_one m with hbit | hbit <;> rw [hbit]
    · rw [Nat.add_zero]; omega
    · rw [hup]; omega
  · rw [hup]; omega

end Halved

/-! ## Normal doubles -/

/-- A positive normal double: its mantissa, and how often that is doubled when
it is counted in the least double. -/
structure NormalDouble where
  mantissa : Nat
  shift : Nat
  normal : 2 ^ 52 ≤ mantissa
  fits : mantissa < 2 ^ 53
  finite : shift ≤ 2045

namespace NormalDouble

/-- A double in steps of the least double. -/
def steps (d : NormalDouble) : Nat := d.mantissa * 2 ^ d.shift

/-- The distance to the next double. -/
def ulp (d : NormalDouble) : Nat := 2 ^ d.shift

theorem mantissa_pos (d : NormalDouble) : 0 < d.mantissa :=
  Nat.lt_of_lt_of_le (by decide) d.normal

/-- A double of a greater shift is at least a step away. -/
theorem add_ulp_le_of_shift (d e : NormalDouble) (hshift : d.shift < e.shift) :
    d.steps + d.ulp ≤ e.steps :=
  calc d.steps + d.ulp = (d.mantissa + 1) * 2 ^ d.shift := by rw [steps, ulp]; ring
    _ ≤ 2 ^ 53 * 2 ^ d.shift := Nat.mul_le_mul_right _ d.fits
    _ = 2 ^ 52 * 2 ^ (d.shift + 1) := by ring
    _ ≤ e.mantissa * 2 ^ e.shift :=
      Nat.mul_le_mul e.normal (Nat.pow_le_pow_right (by decide) hshift)

/-- Doubles of one shift compare as their mantissas do. -/
theorem steps_le_of_shift {d e : NormalDouble} (hshift : d.shift = e.shift) :
    d.steps ≤ e.steps ↔ d.mantissa ≤ e.mantissa := by
  rw [steps, steps, hshift]
  exact Nat.mul_le_mul_right_iff (Nat.two_pow_pos _)

/-- **A greater double is at least a step away.** -/
theorem add_ulp_le {d e : NormalDouble} (hlt : d.steps < e.steps) : d.steps + d.ulp ≤ e.steps := by
  rcases Nat.lt_trichotomy d.shift e.shift with hshift | hshift | hshift
  · exact add_ulp_le_of_shift d e hshift
  · have hmantissa : d.mantissa < e.mantissa :=
      Nat.lt_of_not_le fun hle => Nat.not_lt.2 ((steps_le_of_shift hshift.symm).2 hle) hlt
    calc d.steps + d.ulp = (d.mantissa + 1) * 2 ^ d.shift := by rw [steps, ulp]; ring
      _ ≤ e.mantissa * 2 ^ d.shift := Nat.mul_le_mul_right _ hmantissa
      _ = e.steps := by rw [steps, hshift]
  · have := add_ulp_le_of_shift e d hshift
    omega

/-- A double with its mantissa apart from its exponent. -/
def unpacked (d : NormalDouble) : Float.Model.UnpackedFloat :=
  .finite .positive d.mantissa (d.shift - 1074) d.mantissa_pos

/-- The double itself. -/
def toFloat (d : NormalDouble) : Float := .ofModel (Float.Model.pack d.unpacked)

/-- A word of three parts is read back part by part. -/
theorem unpack_packComponents (biased m : Nat) (hpos : 0 < biased) (hlt : biased < 2047)
    (hnormal : 2 ^ 52 ≤ m) (hfits : m < 2 ^ 53) :
    Float.Model.UnpackedFloat.unpack Format.binary64
        (packComponents Format.binary64 .positive (BitVec.ofNat _ biased) (BitVec.ofNat _ m)) =
      .finite .positive m (biased - 1075) (by omega) := by
  have hexponent : (BitVec.ofNat 11 biased).toNat = biased :=
    Nat.mod_eq_of_lt (by omega)
  have hmantissa : (1#1 ++ BitVec.ofNat 52 m).toNat = m := by
    have hrest : (BitVec.ofNat 52 m).toNat = m % 2 ^ 52 := BitVec.toNat_ofNat m 52
    rw [BitVec.toNat_append, ← Nat.shiftLeft_add_eq_or_of_lt (BitVec.isLt _), hrest,
      Nat.shiftLeft_eq]
    change 1 * 2 ^ 52 + _ = m
    omega
  have hsign : unpackSign (packComponents Format.binary64 .positive (BitVec.ofNat _ biased)
      (BitVec.ofNat _ m)) = 0#1 := by
    apply BitVec.eq_of_getLsbD_eq
    intro i hi
    obtain rfl : i = 0 := by omega
    simp only [unpackSign, packComponents, Sign.toBitVec, BitVec.getLsbD_cast,
      BitVec.getLsbD_extractLsb, BitVec.getLsbD_append]
    simp
  have hfinite : BitVec.ofNat 11 biased ≠ -1#11 := fun h => by
    have hall := congrArg BitVec.toNat h
    rw [hexponent] at hall
    exact absurd hall (by simp; omega)
  have hnonzero : BitVec.ofNat 11 biased ≠ 0#11 := fun h => by
    have hnone := congrArg BitVec.toNat h
    rw [hexponent] at hnone
    exact absurd hnone (by simp; omega)
  simp only [Float.Model.UnpackedFloat.unpack, unpackMantissa_packComponents,
    unpackExponent_packComponents, hsign, if_neg hfinite, if_neg hnonzero, hmantissa, hexponent]
  congr 1

/-- **A double is read back from its bits.** -/
theorem unpack_toFloat (d : NormalDouble) : d.toFloat.toModel.unpack = d.unpacked := by
  have hlog : d.mantissa.log2 = 52 :=
    (Nat.log2_eq_iff (Nat.ne_of_gt d.mantissa_pos)).mpr ⟨d.normal, d.fits⟩
  have hfinite := d.finite
  have hbiased : ((d.shift : Int) - 1074 + Format.binary64.exponentBias +
      Format.binary64.mantissaBitsWithoutImplicit).toNat = d.shift + 1 := by
    simp only [Format.exponentBias]
    omega
  have hpack : Float.Model.UnpackedFloat.pack Format.binary64 d.unpacked =
      packComponents Format.binary64 .positive (BitVec.ofNat _ (d.shift + 1))
        (BitVec.ofNat _ d.mantissa) := by
    simp only [unpacked, Float.Model.UnpackedFloat.pack, hbiased, hlog]
    rw [if_neg (by omega), if_pos (show 52 + 1 = Format.binary64.mantissaBits from rfl)]
  change Float.Model.UnpackedFloat.unpack Format.binary64
    (Float.Model.UnpackedFloat.pack Format.binary64 d.unpacked) = d.unpacked
  rw [hpack, unpack_packComponents _ _ (by omega) (by omega) d.normal d.fits, unpacked]
  congr 1
  omega

/-- Doubles compare by their parts. -/
theorem le_iff_compare (f g : Float) :
    f ≤ g ↔ ((f.toModel.unpack.compare g.toModel.unpack).any (·.isLE)) = true := by
  change (decide (f.toModel ≤ g.toModel)) = true ↔ _
  rw [decide_eq_true_iff]
  rfl

/-- Zero is below all positive doubles. -/
theorem zero_le_toFloat {f : Float} {s : Sign} (hzero : f.toModel.unpack = .zero s)
    (d : NormalDouble) : f ≤ d.toFloat ∧ ¬ d.toFloat ≤ f := by
  rw [le_iff_compare, le_iff_compare, unpack_toFloat, hzero]
  exact ⟨rfl, Bool.false_ne_true⟩

/-- **Doubles compare as their steps do.** -/
theorem toFloat_le_iff (d e : NormalDouble) : d.toFloat ≤ e.toFloat ↔ d.steps ≤ e.steps := by
  rw [le_iff_compare, unpack_toFloat, unpack_toFloat]
  simp only [unpacked, Float.Model.UnpackedFloat.compare, Option.any_some]
  rcases Nat.lt_trichotomy d.shift e.shift with hshift | hshift | hshift
  · have hless := add_ulp_le_of_shift d e hshift
    rw [Int.compare_eq_lt.2 (by omega)]
    simp only [Ordering.then, Ordering.isLE, true_iff]
    omega
  · rw [steps_le_of_shift hshift, Int.compare_eq_eq.2 (by omega), Ordering.then,
      Nat.isLE_compare]
  · have hmore := add_ulp_le_of_shift e d hshift
    have hulp : 0 < e.ulp := Nat.two_pow_pos _
    rw [Int.compare_eq_gt.2 (by omega)]
    simp only [Ordering.then, Ordering.isLE, Bool.false_eq_true, false_iff]
    omega

theorem ulp_pos (d : NormalDouble) : 0 < d.ulp := Nat.two_pow_pos _

/-- A double has between `2 ^ 52` and `2 ^ 53` of its distances to the next. -/
theorem ulp_bounds (d : NormalDouble) : 2 ^ 52 * d.ulp ≤ d.steps ∧ d.steps < 2 ^ 53 * d.ulp :=
  ⟨Nat.mul_le_mul_right _ d.normal, Nat.mul_lt_mul_of_pos_right d.fits d.ulp_pos⟩

/-- The distances of doubles are powers of two. -/
theorem shift_lt {d e : NormalDouble} {k : Nat} (hulp : d.ulp < 2 ^ k * e.ulp) :
    d.shift < k + e.shift := by
  rw [ulp, ulp, ← Nat.pow_add] at hulp
  exact (Nat.pow_lt_pow_iff_right (by decide)).1 hulp

/-- The doubles of lesser shifts lie below the first one of a shift. -/
theorem add_ulp_le_first {d e : NormalDouble} (hshift : e.shift < d.shift) :
    2 * e.ulp ≤ d.ulp ∧ e.steps + e.ulp ≤ 2 ^ 53 * e.ulp := by
  refine ⟨?_, ?_⟩
  · calc 2 * e.ulp = 2 ^ (e.shift + 1) := by rw [ulp]; ring
      _ ≤ d.ulp := Nat.pow_le_pow_right (by decide) hshift
  · calc e.steps + e.ulp = (e.mantissa + 1) * e.ulp := by rw [steps, ulp]; ring
      _ ≤ 2 ^ 53 * e.ulp := Nat.mul_le_mul_right _ e.fits

end NormalDouble

/-! ## The nearest double -/

/-- A double is nearest to an exact result when it is at most half a step away.
Below the first double of a shift the steps are half as long. -/
structure Nearest (d : NormalDouble) (x : Nat) : Prop where
  above : 2 * x ≤ 2 * d.steps + d.ulp
  below : 2 * d.steps ≤ 2 * x + d.ulp
  first : d.mantissa = 2 ^ 52 → 4 * d.steps ≤ 4 * x + d.ulp

namespace Nearest

variable {d e : NormalDouble} {x : Nat}

/-- **What is below the middle behind a double does not round past it.** -/
theorem le (h : Nearest d x) (hx : 2 * x < 2 * e.steps + e.ulp) : d.steps ≤ e.steps := by
  by_contra hnot
  have hlt : e.steps < d.steps := Nat.lt_of_not_le hnot
  have hgap := NormalDouble.add_ulp_le hlt
  have hbelow := h.below
  rcases Nat.lt_or_ge e.shift d.shift with hshift | hshift
  · obtain ⟨hulp, hfirst⟩ := NormalDouble.add_ulp_le_first hshift
    have hsteps : d.steps = d.mantissa * d.ulp := rfl
    rcases Nat.eq_or_lt_of_le d.normal with hmantissa | hmantissa
    · have hedge := h.first hmantissa.symm
      rw [← hmantissa] at hsteps
      omega
    · have hmore : (2 ^ 52 + 1) * d.ulp ≤ d.steps := Nat.mul_le_mul_right _ hmantissa
      omega
  · have hulp : d.ulp ≤ e.ulp := Nat.pow_le_pow_right (by decide) hshift
    omega

/-- **What is above the middle behind a double rounds past it.** -/
theorem lt (h : Nearest d x) (hx : 2 * e.steps + e.ulp < 2 * x) : e.steps < d.steps := by
  by_contra hnot
  have habove := h.above
  rcases Nat.lt_or_ge e.shift d.shift with hshift | hshift
  · have := NormalDouble.add_ulp_le_of_shift e d hshift
    have := e.ulp_pos
    omega
  · have hulp : d.ulp ≤ e.ulp := Nat.pow_le_pow_right (by decide) hshift
    omega

/-- An exact result that is a double is rounded to itself. -/
theorem steps_eq (h : Nearest d e.steps) : d.steps = e.steps := by
  have hulp := d.ulp_pos
  refine Nat.le_antisymm (h.le (by have := e.ulp_pos; omega)) (Nat.le_of_not_lt fun hlt => ?_)
  have hgap := NormalDouble.add_ulp_le hlt
  have habove := h.above
  omega

end Nearest

/-! ## Rounding is to the nearest -/

/-- A shift to 53 bits. -/
theorem shiftToTargetExponent_eq {n k : Nat} (hlog : n.log2 = 52 + k) (b : Nat) :
    shiftToTargetExponent Format.binary64 n ((b : Int) - 1074) .exact =
      (ExtendedMantissa.ofMantissaAndAccuracy n .exact >>> k, ((b + k : Nat) : Int) - 1074) := by
  have htarget : Format.binary64.targetExponent (totalExponent n ((b : Int) - 1074)) =
      ((b + k : Nat) : Int) - 1074 := by
    simp only [Format.targetExponent, totalExponent, Format.mantissaBits, Format.minExponent, hlog]
    omega
  have hamount : (((b + k : Nat) : Int) - 1074 - ((b : Int) - 1074)).toNat = k := by omega
  simp only [shiftToTargetExponent, shiftToExponent, htarget, hamount]
  congr 1
  omega

/-- The number that a shift leaves has 53 bits, and 54 at most when it is rounded
up. -/
theorem Halved.bits {n k : Nat} {em : ExtendedMantissa} (h : Halved n k em) (hpos : 0 < n)
    (hlog : n.log2 = 52 + k) : 2 ^ 52 ≤ em.mantissa ∧ em.mantissa < 2 ^ 53 := by
  obtain ⟨hle, hlt⟩ := h.floor
  obtain ⟨hlow, hhigh⟩ := (Nat.log2_eq_iff (Nat.ne_of_gt hpos)).1 hlog
  have hstep := Nat.two_pow_pos k
  constructor
  · refine Nat.le_of_lt_succ ((Nat.mul_lt_mul_right hstep).1 ?_)
    calc 2 ^ 52 * 2 ^ k = 2 ^ (52 + k) := (Nat.pow_add 2 52 k).symm
      _ ≤ n := hlow
      _ < (em.mantissa + 1) * 2 ^ k := by rw [Nat.add_one_mul]; exact hlt
  · refine (Nat.mul_lt_mul_right hstep).1 ?_
    calc em.mantissa * 2 ^ k ≤ n := hle
      _ < 2 ^ (52 + k + 1) := hhigh
      _ = 2 ^ 53 * 2 ^ k := by ring

/-- What is rounded to 53 bits is rounded to a nearest double. -/
theorem Halved.nearest {n b k : Nat} {em : ExtendedMantissa} (h : Halved n k em) (hpos : 0 < n)
    (hlog : n.log2 = 52 + k) {d : NormalDouble} (hmantissa : em.roundedMantissa = d.mantissa)
    (hshift : d.shift = b + k) : Nearest d (n * 2 ^ b) := by
  obtain ⟨habove, hbelow⟩ := h.rounded
  have hsteps : d.steps = em.roundedMantissa * 2 ^ k * 2 ^ b := by
    rw [NormalDouble.steps, hshift, hmantissa]
    ring
  have hulp : d.ulp = 2 ^ k * 2 ^ b := by
    rw [NormalDouble.ulp, hshift]
    ring
  have hscaled := Nat.mul_le_mul_right (2 ^ b) habove
  have hscaled' := Nat.mul_le_mul_right (2 ^ b) hbelow
  rw [Nat.add_mul, Nat.mul_assoc 2, Nat.mul_assoc 2] at hscaled hscaled'
  rw [← hsteps, ← hulp] at hscaled hscaled'
  refine ⟨hscaled, hscaled', fun hfirst => ?_⟩
  -- the first mantissa is reached from above only
  have hdown : em.roundedMantissa = em.mantissa := by
    have := (h.bits hpos hlog).1
    rcases Halved.rounded_eq em with heq | heq <;> omega
  have hfloor := Nat.mul_le_mul_right (2 ^ b) h.floor.1
  rw [← hdown, ← hsteps] at hfloor
  omega

/-- What is rounded up to 54 bits, of which the last is dropped, is rounded to a nearest
double, too. -/
theorem Halved.nearest_carry {n b k : Nat} {em : ExtendedMantissa} (h : Halved n k em)
    {d : NormalDouble} (hrounded : em.roundedMantissa = 2 ^ 53) (hmantissa : d.mantissa = 2 ^ 52)
    (hshift : d.shift = b + k + 1) : Nearest d (n * 2 ^ b) := by
  obtain ⟨habove, hbelow⟩ := h.rounded
  have hsteps : d.steps = em.roundedMantissa * 2 ^ k * 2 ^ b := by
    rw [NormalDouble.steps, hshift, hmantissa, hrounded]
    ring
  have hulp : d.ulp = 2 * (2 ^ k * 2 ^ b) := by
    rw [NormalDouble.ulp, hshift]
    ring
  have hscaled := Nat.mul_le_mul_right (2 ^ b) habove
  have hscaled' := Nat.mul_le_mul_right (2 ^ b) hbelow
  rw [Nat.add_mul, Nat.mul_assoc 2, Nat.mul_assoc 2, ← hsteps] at hscaled hscaled'
  exact ⟨by omega, by omega, fun _ => by omega⟩

/-- A rounding shifts, rounds, and shifts once more. -/
theorem roundWithAccuracy_eq {n : Nat} {e e' : Int} {em last : ExtendedMantissa}
    {d : NormalDouble} (hshift : shiftToTargetExponent Format.binary64 n e .exact = (em, e'))
    (hlast : shiftToTargetExponent Format.binary64 em.roundedMantissa e' .exact =
      (last, (d.shift : Int) - 1074)) (hmantissa : last.mantissa = d.mantissa) :
    roundWithAccuracy Format.binary64 .positive n e .exact = d.unpacked := by
  have hnonzero : d.mantissa ≠ 0 := Nat.ne_of_gt d.mantissa_pos
  simp only [roundWithAccuracy, hshift, hlast, hmantissa, dif_neg hnonzero]
  rfl

/-- **A rounding gives a nearest double**, when it has bits enough and is not
too great. -/
theorem roundWithAccuracy_nearest {n b : Nat} (hlog : 52 ≤ n.log2) (hbound : b + n.log2 ≤ 2096) :
    ∃ d : NormalDouble, Nearest d (n * 2 ^ b) ∧
      roundWithAccuracy Format.binary64 .positive n ((b : Int) - 1074) .exact = d.unpacked := by
  obtain ⟨k, hk⟩ := Nat.exists_eq_add_of_le hlog
  have hpos : 0 < n := Nat.pos_of_ne_zero fun h => by rw [h, Nat.log2_zero] at hk; omega
  have hshift := shiftToTargetExponent_eq hk b
  have hhalved := Halved.shiftRight n k
  generalize ExtendedMantissa.ofMantissaAndAccuracy n .exact >>> k = em at hshift hhalved
  obtain ⟨hlow, hhigh⟩ := hhalved.bits hpos hk
  have hrounded := Halved.rounded_eq em
  rcases Nat.lt_or_ge em.roundedMantissa (2 ^ 53) with hfits | hcarry
  · have hlog' : em.roundedMantissa.log2 = 52 + 0 :=
      (Nat.log2_eq_iff (by omega)).2 ⟨by omega, hfits⟩
    refine ⟨⟨em.roundedMantissa, b + k, by omega, hfits, by omega⟩,
      hhalved.nearest hpos hk rfl rfl, ?_⟩
    exact roundWithAccuracy_eq hshift (shiftToTargetExponent_eq hlog' (b + k)) rfl
  · have hfull : em.roundedMantissa = 2 ^ 53 := by omega
    have hlog' : em.roundedMantissa.log2 = 52 + 1 := by rw [hfull, Nat.log2_two_pow]
    refine ⟨⟨2 ^ 52, b + k + 1, by decide, by decide, by omega⟩,
      hhalved.nearest_carry hfull rfl rfl, ?_⟩
    refine roundWithAccuracy_eq hshift (shiftToTargetExponent_eq hlog' (b + k)) ?_
    rw [hfull]
    rfl

/-! ## Products and conversions -/

namespace NormalDouble

/-- **A product of doubles is a nearest one.** -/
theorem mul_nearest (d e : NormalDouble) (hlow : 1074 ≤ d.shift + e.shift)
    (hhigh : d.shift + e.shift ≤ 3065) :
    ∃ product : NormalDouble,
      Nearest product (d.mantissa * e.mantissa * 2 ^ (d.shift + e.shift - 1074)) ∧
        d.toFloat * e.toFloat = product.toFloat := by
  have hpos : d.mantissa * e.mantissa ≠ 0 :=
    Nat.ne_of_gt (Nat.mul_pos d.mantissa_pos e.mantissa_pos)
  have hleast : 2 ^ 52 * 2 ^ 52 ≤ d.mantissa * e.mantissa := Nat.mul_le_mul d.normal e.normal
  have hmost : d.mantissa * e.mantissa < 2 ^ 53 * 2 ^ 53 := Nat.mul_lt_mul'' d.fits e.fits
  rw [← Nat.pow_add] at hleast hmost
  have hlog := (Nat.le_log2 hpos).2 hleast
  have hlog' := (Nat.log2_lt hpos).2 hmost
  obtain ⟨product, hnearest, hround⟩ := roundWithAccuracy_nearest
    (n := d.mantissa * e.mantissa) (b := d.shift + e.shift - 1074) (by omega) (by omega)
  refine ⟨product, hnearest, ?_⟩
  have hexponent : (d.shift : Int) - 1074 + ((e.shift : Int) - 1074) =
      ((d.shift + e.shift - 1074 : Nat) : Int) - 1074 := by omega
  have hmul : Float.Model.UnpackedFloat.mul Format.binary64 d.unpacked e.unpacked =
      product.unpacked := by
    rw [← hround, ← hexponent]
    rfl
  change Float.ofModel (Float.Model.pack (Float.Model.UnpackedFloat.mul Format.binary64
    d.toFloat.toModel.unpack e.toFloat.toModel.unpack)) = _
  rw [unpack_toFloat, unpack_toFloat, hmul]
  rfl

end NormalDouble

/-- A number shifted to the left has as many more bits. -/
theorem log2_shiftLeft {n : Nat} (hpos : 0 < n) (k : Nat) : (n <<< k).log2 = n.log2 + k := by
  induction k with
  | zero => rfl
  | succ k ih =>
    have hshift : n <<< (k + 1) = 2 * n <<< k := by
      rw [Nat.shiftLeft_eq, Nat.shiftLeft_eq]
      ring
    have hne : n <<< k ≠ 0 := by
      rw [Nat.shiftLeft_eq]
      exact Nat.ne_of_gt (Nat.mul_pos hpos (Nat.two_pow_pos k))
    rw [hshift, Nat.log2_two_mul hne, ih, Nat.add_assoc]

/-- How often the least double is doubled up to one. Its power is not to be
evaluated. -/
@[irreducible] def bias : Nat := 1074

theorem bias_eq : bias = 1074 := by rw [bias]

/-- One, in steps of the least double. -/
def one : Nat := 2 ^ bias

/-- **A conversion of a number is a nearest double.** -/
theorem ofNat_nearest {n : Nat} (hpos : 0 < n) (hlt : n < 2 ^ 64) :
    ∃ d : NormalDouble, Nearest d (n * one) ∧
      Float.Model.UnpackedFloat.ofNat Format.binary64 n = d.unpacked := by
  have hlog := (Nat.log2_lt (Nat.ne_of_gt hpos)).2 hlt
  have htarget : Format.binary64.targetExponent (totalExponent n 0) = (n.log2 : Int) - 52 := by
    simp only [Format.targetExponent, totalExponent, Format.mantissaBits, Format.minExponent]
    omega
  -- a number of fewer than 53 bits is filled up with zeros
  have hamount : ((0 : Int) - ((n.log2 : Int) - 52)).toNat = 52 - n.log2 := by omega
  have hfilled := log2_shiftLeft hpos (52 - n.log2)
  have hexponent : (0 : Int) - ((52 - n.log2 : Nat) : Int) =
      ((1074 - (52 - n.log2) : Nat) : Int) - 1074 := by omega
  obtain ⟨d, hnearest, hround⟩ := roundWithAccuracy_nearest
    (n := n <<< (52 - n.log2)) (b := 1074 - (52 - n.log2)) (by omega) (by omega)
  refine ⟨d, ?_, ?_⟩
  · have hbias : 52 - n.log2 + (1074 - (52 - n.log2)) = bias := by rw [bias_eq]; omega
    rwa [Nat.shiftLeft_eq, Nat.mul_assoc, ← Nat.pow_add, hbias] at hnearest
  · rw [Float.Model.UnpackedFloat.ofNat, Float.Model.UnpackedFloat.ofInt,
      Float.Model.UnpackedFloat.normalize,
      Int.compare_eq_gt.2 (by omega)]
    simp only [Float.Model.UnpackedFloat.round, Int.toNat_natCast, htarget, decreaseExponent,
      hamount, hexponent, hround]

/-- A number of up to 53 bits is a double. -/
theorem exists_steps_eq {n : Nat} (hpos : 0 < n) (hlt : n < 2 ^ 53) :
    ∃ d : NormalDouble, d.steps = n * one := by
  have hlog := (Nat.log2_lt (Nat.ne_of_gt hpos)).2 hlt
  have hfilled := log2_shiftLeft hpos (52 - n.log2)
  have hne : n <<< (52 - n.log2) ≠ 0 := by
    rw [Nat.shiftLeft_eq]
    exact Nat.ne_of_gt (Nat.mul_pos hpos (Nat.two_pow_pos _))
  obtain ⟨hnormal, hfits⟩ := (Nat.log2_eq_iff hne).1 (hfilled.trans (by omega : _ = 52))
  refine ⟨⟨n <<< (52 - n.log2), 1022 + n.log2, hnormal, hfits, by omega⟩, ?_⟩
  have hbias : 52 - n.log2 + (1022 + n.log2) = bias := by rw [bias_eq]; omega
  change n <<< (52 - n.log2) * 2 ^ (1022 + n.log2) = n * one
  rw [Nat.shiftLeft_eq, Nat.mul_assoc, ← Nat.pow_add, hbias, one]

/-- **The conversion of a number of up to 53 bits is exact.** -/
theorem ofNat_exact {n : Nat} (hpos : 0 < n) (hlt : n < 2 ^ 53) :
    ∃ d : NormalDouble, d.steps = n * one ∧
      Float.Model.UnpackedFloat.ofNat Format.binary64 n = d.unpacked := by
  obtain ⟨d, hnearest, hof⟩ := ofNat_nearest hpos (by omega)
  obtain ⟨e, hsteps⟩ := exists_steps_eq hpos hlt
  rw [← hsteps] at hnearest ⊢
  exact ⟨d, hnearest.steps_eq, hof⟩

end Colloquy.Number
