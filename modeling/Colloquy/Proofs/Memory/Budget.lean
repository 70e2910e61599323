import Colloquy.Memory.Window
import Colloquy.Proofs.Number.Rounding
/-!
# The token budget, in doubles and in tenths of a token

The estimate for a text is a double, the product of two that may both have been
rounded, and it is compared with a threshold that is a double, too.
`Memory.withinTokens` decides the same in tenths of a token, without rounding:
`estimateTokens_le_iff` is for every text that has no more words than 64 bits
count and every threshold of 32 bits.
-/

namespace Colloquy.Memory

open Number Float.Model

/-- The double next to thirteen tenths, by two tenths of a step above them. -/
def thirteenTenths : NormalDouble := ⟨5854679515581645, 1022, by decide, by decide, by decide⟩

theorem toFloat_thirteenTenths : thirteenTenths.toFloat = 1.3 := by decide +kernel

/-- The distance from there to the next double. -/
def tick : Nat := 2 ^ (bias - 52)

theorem tick_pos : 0 < tick := Nat.two_pow_pos _

theorem count_one (n : Nat) : n * one = 2 ^ 52 * (n * tick) := by
  have hbias : bias = 52 + (bias - 52) := by rw [bias_eq]
  rw [one, hbias, Nat.pow_add, Nat.mul_left_comm]
  rfl

theorem ulp_thirteenTenths : thirteenTenths.ulp = tick := by
  have hshift : thirteenTenths.shift = bias - 52 := by rw [bias_eq]; rfl
  rw [NormalDouble.ulp, hshift, tick]

/-- A count of 64 bits is converted as a number is. -/
theorem toFloat_ofNat64 {n : Nat} (hlt : n < 2 ^ 64) {d : NormalDouble}
    (hof : UnpackedFloat.ofNat Format.binary64 n = d.unpacked) :
    (UInt64.ofNat n).toFloat = d.toFloat := by
  change Float.ofModel (pack (UnpackedFloat.ofNat Format.binary64 (UInt64.ofNat n).toNat)) = _
  rw [UInt64.toNat_ofNat_of_lt' hlt, hof]
  rfl

/-- A threshold of 32 bits is converted as a number is. -/
theorem toFloat_ofNat32 {n : Nat} (hlt : n < 2 ^ 32) {d : NormalDouble}
    (hof : UnpackedFloat.ofNat Format.binary64 n = d.unpacked) :
    (UInt32.ofNat n).toFloat = d.toFloat := by
  change Float.ofModel (pack (UnpackedFloat.ofNat Format.binary64 (UInt32.ofNat n).toNat)) = _
  rw [UInt32.toNat_ofNat_of_lt' hlt, hof]
  rfl

/-- The shift of a double that a count is rounded to. -/
theorem shift_of_count {n : Nat} (hpos : 0 < n) (hlt : n < 2 ^ 64) {count : NormalDouble}
    (hcount : Nearest count (n * one)) : 1020 ≤ count.shift ∧ count.shift < 1087 := by
  obtain ⟨habove, hbelow, -⟩ := hcount
  obtain ⟨hleast, hmost⟩ := count.ulp_bounds
  have hfew : tick ≤ n * tick := Nat.le_mul_of_pos_left _ hpos
  have hmany : n * tick < 2 ^ 64 * tick := Nat.mul_lt_mul_of_pos_right hlt tick_pos
  rw [count_one] at habove hbelow
  have hlow : thirteenTenths.ulp < 2 ^ 2 * count.ulp := by rw [ulp_thirteenTenths]; omega
  have hhigh : count.ulp < 2 ^ 65 * thirteenTenths.ulp := by rw [ulp_thirteenTenths]; omega
  have hshift : thirteenTenths.shift = 1022 := rfl
  have := NormalDouble.shift_lt hlow
  have := NormalDouble.shift_lt hhigh
  omega

/-- A count times thirteen tenths: the count is rounded, and then the product. -/
theorem estimate_nearest {n : Nat} (hpos : 0 < n) (hlt : n < 2 ^ 64) :
    ∃ (count product : NormalDouble) (x : Nat), Nearest count (n * one) ∧
      2 ^ 52 * x = 5854679515581645 * count.steps ∧ Nearest product x ∧
      (UInt64.ofNat n).toFloat * 1.3 = product.toFloat := by
  obtain ⟨count, hcount, hof⟩ := ofNat_nearest hpos hlt
  obtain ⟨hlow, hhigh⟩ := shift_of_count hpos hlt hcount
  have hshift : thirteenTenths.shift = 1022 := rfl
  obtain ⟨product, hproduct, hmul⟩ := count.mul_nearest thirteenTenths (by omega) (by omega)
  refine ⟨count, product, _, hcount, ?_, hproduct, ?_⟩
  · have hshifts : count.shift + thirteenTenths.shift - 1074 + 52 = count.shift := by omega
    have hpow : 2 ^ (count.shift + thirteenTenths.shift - 1074) * 2 ^ 52 = 2 ^ count.shift := by
      rw [← Nat.pow_add, hshifts]
    rw [NormalDouble.steps, ← hpow]
    change 2 ^ 52 * (count.mantissa * 5854679515581645 * _) = _
    ring
  · rw [toFloat_ofNat64 hlt hof, ← toFloat_thirteenTenths, hmul]

/-! ## The product and its threshold, in ticks -/

section Ticks

variable {words limit ulp x : Nat}

/-- Thirteen tenths of a number of words that are within a limit lie below the
middle of the step behind the limit, though they are multiplied by a little
more. -/
theorem product_lt_middle (hfits : 13 * words ≤ 10 * limit)
    (hulp : 2 ^ 52 * limit < 2 ^ 53 * ulp)
    (hx : 2 ^ 52 * x = 5854679515581645 * (2 ^ 52 * words)) :
    2 * x < 2 * (2 ^ 52 * limit) + ulp := by
  omega

/-- Those that are above it by a tenth lie above that middle, when the limit has
32 bits. -/
theorem middle_lt_product {one : Nat} (hover : 10 * limit + one ≤ 13 * words)
    (hsmall : limit < 2 ^ 32 * one) (hulp : 2 ^ 52 * ulp ≤ 2 ^ 52 * limit)
    (hx : 2 ^ 52 * x = 5854679515581645 * (2 ^ 52 * words)) :
    2 * (2 ^ 52 * limit) + ulp < 2 * x := by
  omega

/-- The product of a number that had to be rounded lies above that middle, too. -/
theorem middle_lt_rounded {one count : Nat} (hcount : 2 ^ 52 * (2 ^ 52 * one) < count)
    (hsmall : limit < 2 ^ 32 * one) (hulp : 2 ^ 52 * ulp ≤ 2 ^ 52 * limit)
    (hx : 2 ^ 52 * x = 5854679515581645 * count) : 2 * (2 ^ 52 * limit) + ulp < 2 * x := by
  -- from the equation to a bound, which is as much as is needed
  have hgreat : 5854679515581645 * (2 ^ 52 * one) < x := by
    refine Nat.lt_of_mul_lt_mul_left (a := 2 ^ 52) ?_
    rw [hx, Nat.mul_left_comm]
    exact Nat.mul_lt_mul_of_pos_left hcount (by decide)
  clear hx hcount
  omega

end Ticks

/-! ## The estimate and the threshold -/

variable {words threshold : Nat}

/-- The threshold as a double. -/
theorem exists_limit (hpos : 0 < threshold) (hlt : threshold < 2 ^ 32) :
    ∃ limit : NormalDouble, limit.steps = 2 ^ 52 * (threshold * tick) ∧
      (UInt32.ofNat threshold).toFloat = limit.toFloat := by
  obtain ⟨limit, hlimit, hof⟩ := ofNat_exact hpos (Nat.lt_trans hlt (by decide))
  rw [count_one] at hlimit
  exact ⟨limit, hlimit, toFloat_ofNat32 hlt hof⟩

/-- A count of up to 53 bits is not rounded. -/
theorem count_steps (hpos : 0 < words) (hlt : words < 2 ^ 53) {count : NormalDouble}
    (hcount : Nearest count (words * one)) : count.steps = 2 ^ 52 * (words * tick) := by
  obtain ⟨whole, hwhole⟩ := exists_steps_eq hpos hlt
  rw [← hwhole] at hcount
  rw [hcount.steps_eq, hwhole, count_one]

/-- A greater one is still great when it is rounded. -/
theorem lt_count_steps (hlt : 2 ^ 53 ≤ words) {count : NormalDouble}
    (hcount : Nearest count (words * one)) : 2 ^ 52 * (2 ^ 52 * tick) < count.steps := by
  obtain ⟨great, hgreat⟩ := exists_steps_eq (n := 2 ^ 52) (by decide) (by decide)
  have hbounds := great.ulp_bounds
  have hmany := Nat.mul_le_mul_right tick hlt
  rw [count_one] at hgreat hcount
  rw [← hgreat]
  refine hcount.lt ?_
  rw [hgreat] at hbounds ⊢
  omega

/-- An estimate that ought to be within its threshold is. -/
theorem estimate_le (hpos : 0 < words) (hthreshold : threshold < 2 ^ 32)
    (hfits : 13 * words ≤ 10 * threshold) :
    (UInt64.ofNat words).toFloat * 1.3 ≤ (UInt32.ofNat threshold).toFloat := by
  have hfew : words < 2 ^ 53 := by omega
  have hsome : 0 < threshold := by omega
  obtain ⟨limit, hlimit, hof⟩ := exists_limit hsome hthreshold
  obtain ⟨count, product, x, hcount, hx, hproduct, hestimate⟩ :=
    estimate_nearest hpos (Nat.lt_trans hfew (by decide))
  have hbounds := limit.ulp_bounds
  rw [count_steps hpos hfew hcount] at hx
  rw [hlimit] at hbounds
  rw [hestimate, hof, NormalDouble.toFloat_le_iff]
  refine hproduct.le ?_
  rw [hlimit]
  refine product_lt_middle ?_ hbounds.2 hx
  rw [← Nat.mul_assoc, ← Nat.mul_assoc]
  exact Nat.mul_le_mul_right tick hfits

/-- An estimate that ought to be above the threshold is. -/
theorem lt_estimate (hwords : words < 2 ^ 64) (hpos : 0 < threshold)
    (hthreshold : threshold < 2 ^ 32) (hover : 10 * threshold < 13 * words) :
    ¬ (UInt64.ofNat words).toFloat * 1.3 ≤ (UInt32.ofNat threshold).toFloat := by
  have hsome : 0 < words := by omega
  have hsmall : threshold * tick < 2 ^ 32 * tick := Nat.mul_lt_mul_of_pos_right hthreshold tick_pos
  obtain ⟨limit, hlimit, hof⟩ := exists_limit hpos hthreshold
  obtain ⟨count, product, x, hcount, hx, hproduct, hestimate⟩ := estimate_nearest hsome hwords
  have hbounds := limit.ulp_bounds
  rw [hlimit] at hbounds
  rw [hestimate, hof, NormalDouble.toFloat_le_iff, Nat.not_le]
  refine hproduct.lt ?_
  rw [hlimit]
  rcases Nat.lt_or_ge words (2 ^ 53) with hfew | hmany
  · rw [count_steps hsome hfew hcount] at hx
    refine middle_lt_product ?_ hsmall hbounds.1 hx
    rw [← Nat.mul_assoc, ← Nat.mul_assoc, ← Nat.succ_mul]
    exact Nat.mul_le_mul_right tick hover
  · exact middle_lt_rounded (lt_count_steps hmany hcount) hsmall hbounds.1 hx

/-- **The estimate for a text is within a threshold just when thirteen tenths of
its words are.** -/
theorem estimateTokens_le_iff {text : String} (hwords : Text.wordCount text < 2 ^ 64)
    (hthreshold : threshold < 2 ^ 32) :
    estimateTokens text ≤ (UInt32.ofNat threshold).toFloat ↔
      withinTokens text threshold = true := by
  rw [withinTokens, decide_eq_true_iff, estimateTokens]
  generalize Text.wordCount text = words at hwords ⊢
  rcases Nat.eq_zero_or_pos words with rfl | hsome
  · refine iff_of_true ?_ (by omega)
    rcases Nat.eq_zero_or_pos threshold with rfl | hpos
    · decide +kernel
    · obtain ⟨limit, -, hof⟩ := exists_limit hpos hthreshold
      rw [hof]
      exact (NormalDouble.zero_le_toFloat (s := .positive) rfl limit).1
  · rcases Nat.eq_zero_or_pos threshold with rfl | hpos
    · obtain ⟨count, product, x, -, -, -, hestimate⟩ := estimate_nearest hsome hwords
      rw [hestimate]
      exact iff_of_false (NormalDouble.zero_le_toFloat (s := .positive) rfl product).2 (by omega)
    · by_cases hfits : 13 * words ≤ 10 * threshold
      · exact iff_of_true (estimate_le hsome hthreshold hfits) hfits
      · exact iff_of_false (lt_estimate hwords hpos hthreshold (Nat.lt_of_not_le hfits)) hfits

end Colloquy.Memory
