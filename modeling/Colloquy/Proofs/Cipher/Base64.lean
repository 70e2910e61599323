import Colloquy.Cipher.Base64
/-!
# Reading base64 back

`decode (encodeBytes bytes) = .ok bytes`. A symbol stands for its six bits
(`value?_symbol`), and four symbols carry three bytes; the last group has one,
two or three of them. What is written is plain ASCII without blanks
(`printable_of_mem_encodeBytes`), so a text of it is its bytes.
-/

namespace Colloquy.Base64

/-! ## Symbols -/

/-- **A symbol is read back**, each of the 64. -/
theorem value?_symbol {n : Nat} (hn : n < 64) : value? (symbol n) = some n := by
  have hall : ∀ n : Fin 64, value? (symbol n) = some n.val := by decide +kernel
  exact hall ⟨n, hn⟩

/-- The symbols are the 64 of the alphabet in their order. -/
example : (List.range 64).map (fun n => Char.ofNat (symbol n).toNat) =
    "ABCDEFGHIJKLMNOPQRSTUVWXYZabcdefghijklmnopqrstuvwxyz0123456789+/".toList := by
  decide +kernel

theorem symbol_ne_pad {n : Nat} (hn : n < 64) : symbol n ≠ pad := by
  have hall : ∀ n : Fin 64, symbol n ≠ pad := by decide +kernel
  exact hall ⟨n, hn⟩

/-- A byte between the first and the last of those that are written. -/
def Printable (b : UInt8) : Prop := 43 ≤ b.toNat ∧ b.toNat ≤ 122

theorem printable_pad : Printable pad := by
  unfold Printable
  decide

theorem printable_symbol {n : Nat} (hn : n < 64) : Printable (symbol n) := by
  have hall : ∀ n : Fin 64, 43 ≤ (symbol n).toNat ∧ (symbol n).toNat ≤ 122 := by decide +kernel
  exact hall ⟨n, hn⟩

theorem valueAt_symbol {n : Nat} (hn : n < 64) (offset : Nat) :
    valueAt (symbol n) offset = .ok n := by
  simp only [valueAt, value?_symbol hn]

theorem ofNat_of_eq {n : Nat} {b : UInt8} (h : n = b.toNat) : UInt8.ofNat n = b := by
  rw [h, UInt8.ofNat_toNat]

/-! ## Groups -/

theorem groupSymbols_symbol {n : Nat} (hn : n < 64) (start index : Nat) {rest : List UInt8}
    {found : List (Nat × UInt8) × Nat} (hrest : groupSymbols start (index + 1) rest = .ok found) :
    groupSymbols start index (symbol n :: rest) = .ok ((n, symbol n) :: found.1, found.2) := by
  rw [groupSymbols, if_neg (symbol_ne_pad hn), valueAt_symbol hn, hrest]
  rfl

/-- What stands behind the symbols of the last group is padding. -/
theorem groupSymbols_padding (start : Nat) :
    groupSymbols start 2 [pad, pad] = .ok ([], 2) ∧ groupSymbols start 3 [pad] = .ok ([], 1) ∧
      groupSymbols start 4 [] = .ok ([], 0) :=
  ⟨rfl, rfl, rfl⟩

theorem groupSymbols_two {m n : Nat} (hm : m < 64) (hn : n < 64) (start : Nat) :
    groupSymbols start 0 [symbol m, symbol n, pad, pad] =
      .ok ([(m, symbol m), (n, symbol n)], 2) :=
  groupSymbols_symbol hm start 0 (groupSymbols_symbol hn start 1 (groupSymbols_padding start).1)

theorem groupSymbols_three {m n k : Nat} (hm : m < 64) (hn : n < 64) (hk : k < 64) (start : Nat) :
    groupSymbols start 0 [symbol m, symbol n, symbol k, pad] =
      .ok ([(m, symbol m), (n, symbol n), (k, symbol k)], 1) :=
  groupSymbols_symbol hm start 0 (groupSymbols_symbol hn start 1
    (groupSymbols_symbol hk start 2 (groupSymbols_padding start).2.1))

theorem groupSymbols_four {m n k l : Nat} (hm : m < 64) (hn : n < 64) (hk : k < 64) (hl : l < 64)
    (start : Nat) :
    groupSymbols start 0 [symbol m, symbol n, symbol k, symbol l] =
      .ok ([(m, symbol m), (n, symbol n), (k, symbol k), (l, symbol l)], 0) :=
  groupSymbols_symbol hm start 0 (groupSymbols_symbol hn start 1
    (groupSymbols_symbol hk start 2
      (groupSymbols_symbol hl start 3 (groupSymbols_padding start).2.2)))

theorem lastGroup_one (start : Nat) (a : UInt8) :
    lastGroup start (encodeBytes [a]) = .ok [a] := by
  have ha := a.toNat_lt
  have hzero : a.toNat % 4 * 16 % 16 = 0 := by omega
  have hbyte : UInt8.ofNat (a.toNat / 4 * 4 + a.toNat % 4 * 16 / 16) = a := ofNat_of_eq (by omega)
  rw [encodeBytes, lastGroup, groupSymbols_two (by omega) (by omega)]
  simp only [Bind.bind, Except.bind, List.length_cons, List.length_nil]
  rw [if_neg (by simp), if_pos hzero, hbyte]

theorem lastGroup_two (start : Nat) (a b : UInt8) :
    lastGroup start (encodeBytes [a, b]) = .ok [a, b] := by
  have ha := a.toNat_lt
  have hb := b.toNat_lt
  rw [encodeBytes, lastGroup]
  generalize hn : a.toNat * 256 + b.toNat = n
  have hzero : n % 16 * 4 % 4 = 0 := by omega
  have hfirst : UInt8.ofNat (n / 1024 * 4 + n / 16 % 64 / 16) = a := ofNat_of_eq (by omega)
  have hsecond : UInt8.ofNat (n / 16 % 64 % 16 * 16 + n % 16 * 4 / 4) = b := ofNat_of_eq (by omega)
  simp only [groupSymbols_three (show n / 1024 < 64 by omega) (show n / 16 % 64 < 64 by omega)
    (show n % 16 * 4 < 64 by omega)]
  simp only [Bind.bind, Except.bind, List.length_cons, List.length_nil]
  rw [if_neg (by simp), if_pos hzero, hfirst, hsecond]

/-- Three bytes are in their four symbols. -/
theorem bytes_of_symbols {a b c : UInt8} {n : Nat}
    (hn : a.toNat * 65536 + b.toNat * 256 + c.toNat = n) :
    n / 262144 < 64 ∧ UInt8.ofNat (n / 262144 * 4 + n / 4096 % 64 / 16) = a ∧
      UInt8.ofNat (n / 4096 % 64 % 16 * 16 + n / 64 % 64 / 4) = b ∧
      UInt8.ofNat (n / 64 % 64 % 4 * 64 + n % 64) = c := by
  have ha := a.toNat_lt
  have hb := b.toNat_lt
  have hc := c.toNat_lt
  exact ⟨by omega, ofNat_of_eq (by omega), ofNat_of_eq (by omega), ofNat_of_eq (by omega)⟩

theorem lastGroup_three (start : Nat) (a b c : UInt8) :
    lastGroup start (encodeBytes [a, b, c]) = .ok [a, b, c] := by
  rw [encodeBytes, encodeBytes, lastGroup]
  generalize hn : a.toNat * 65536 + b.toNat * 256 + c.toNat = n
  obtain ⟨hlead, hfirst, hsecond, hthird⟩ := bytes_of_symbols hn
  simp only [groupSymbols_four hlead (show n / 4096 % 64 < 64 by omega)
    (show n / 64 % 64 < 64 by omega) (show n % 64 < 64 by omega)]
  simp only [Bind.bind, Except.bind, List.length_cons, List.length_nil]
  rw [if_neg (by simp), hfirst, hsecond, hthird]

/-! ## Whole texts -/

theorem encodeBytes_eq_nil_iff (bytes : List UInt8) : encodeBytes bytes = [] ↔ bytes = [] := by
  fun_cases encodeBytes bytes <;> simp

theorem length_encodeBytes (bytes : List UInt8) : (encodeBytes bytes).length % 4 = 0 := by
  fun_induction encodeBytes bytes with
  | case1 => rfl
  | case2 a n => simp
  | case3 a b n => simp
  | case4 a b c rest n ih =>
    simp only [List.length_cons]
    omega

/-- **Nothing but printable bytes is written.** -/
theorem printable_of_mem_encodeBytes {bytes : List UInt8} {b : UInt8}
    (h : b ∈ encodeBytes bytes) : Printable b := by
  fun_induction encodeBytes bytes with
  | case1 => cases h
  | case2 a n =>
    have ha := a.toNat_lt
    simp only [List.mem_cons, List.not_mem_nil, or_false] at h
    rcases h with rfl | rfl | rfl | rfl
    · exact printable_symbol (by omega)
    · exact printable_symbol (by omega)
    · exact printable_pad
    · exact printable_pad
  | case3 a b n =>
    have ha := a.toNat_lt
    have hb := b.toNat_lt
    simp only [List.mem_cons, List.not_mem_nil, or_false] at h
    rcases h with rfl | rfl | rfl | rfl
    · exact printable_symbol (by omega)
    · exact printable_symbol (by omega)
    · exact printable_symbol (by omega)
    · exact printable_pad
  | case4 a b c rest n ih =>
    obtain ⟨hlead, -⟩ := bytes_of_symbols (rfl : _ = n)
    simp only [List.mem_cons] at h
    rcases h with rfl | rfl | rfl | rfl | h
    · exact printable_symbol hlead
    · exact printable_symbol (by omega)
    · exact printable_symbol (by omega)
    · exact printable_symbol (by omega)
    · exact ih h

/-- The groups of a written form, whatever its offset. -/
theorem groups_encodeBytes (bytes : List UInt8) (hbytes : bytes ≠ []) :
    ∀ start, groups start (encodeBytes bytes) = .ok bytes := by
  fun_induction encodeBytes bytes with
  | case1 => exact absurd rfl hbytes
  | case2 a n => intro start; exact lastGroup_one start a
  | case3 a b n => intro start; exact lastGroup_two start a b
  | case4 a b c rest n ih =>
    intro start
    cases hmore : encodeBytes rest with
    | nil =>
      obtain rfl := (encodeBytes_eq_nil_iff rest).1 hmore
      exact lastGroup_three start a b c
    | cons e more =>
      have hrest : rest ≠ [] := by
        rintro rfl
        cases hmore
      have htail := ih hrest (start + 4)
      rw [hmore] at htail
      obtain ⟨hlead, hfirst, hsecond, hthird⟩ := bytes_of_symbols (rfl : _ = n)
      rw [groups, valueAt_symbol hlead, valueAt_symbol (by omega), valueAt_symbol (by omega),
        valueAt_symbol (by omega), htail]
      show Except.ok _ = _
      rw [hfirst, hsecond, hthird]

/-- **What was written is read back.** -/
theorem decode_encodeBytes (bytes : List UInt8) : decode (encodeBytes bytes) = .ok bytes := by
  have hlength := length_encodeBytes bytes
  rw [decode]
  cases hlast : (encodeBytes bytes).getLast? with
  | none =>
    rw [List.getLast?_eq_none_iff, encodeBytes_eq_nil_iff] at hlast
    rw [hlast]
  | some last =>
    have hbytes : bytes ≠ [] := by
      rintro rfl
      cases hlast
    rw [hlength]
    exact groups_encodeBytes bytes hbytes 0

end Colloquy.Base64
