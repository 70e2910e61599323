import Colloquy.Text.Utf8
/-!
# Reading back what was written

`decode? (encode s) = some s`: the octets of a text are well formed and are
the octets of no other text. The proof is one lemma for a character, whose
four cases are the lengths of its written form.

Octets below 128 stand for themselves: no longer character has one. So what is
written in ASCII is found in the octets of a text just where it is found in the
text (`encodeChars_infix_iff`), and is as often in what was read as in the
octets that it was read from (`countP_of_decodeChars`).
-/

namespace Colloquy.Text.Utf8

theorem toNat_ofNat {k : Nat} (hk : k < 256) : (UInt8.ofNat k).toNat = k :=
  UInt8.toNat_ofNat_of_lt hk

theorem ofNat_lt {k : Nat} (hk : k < 256) (b : UInt8) : UInt8.ofNat k < b ↔ k < b.toNat := by
  rw [UInt8.lt_iff_toNat_lt, toNat_ofNat hk]

/-- The range of an octet that leads a longer form. -/
theorem ofNat_between (low high : UInt8) {k : Nat} (hk : k < 256) (hlow : low.toNat ≤ k)
    (hhigh : k < high.toNat) : ¬ UInt8.ofNat k < low ∧ UInt8.ofNat k < high := by
  rw [ofNat_lt hk, ofNat_lt hk]
  exact ⟨Nat.not_lt.2 hlow, hhigh⟩

/-- An octet made of six bits continues a character. -/
theorem isTail_ofNat {k : Nat} (hk : k < 64) : isTail (UInt8.ofNat (0x80 + k)) = true := by
  simp only [isTail, Bool.and_eq_true, decide_eq_true_eq, UInt8.le_iff_toNat_le,
    toNat_ofNat (show 0x80 + k < 256 by omega)]
  exact ⟨by simp, by simp; omega⟩

/-- An octet made of six bits carries them. -/
theorem tailBits_ofNat {k : Nat} (hk : k < 64) : tailBits (UInt8.ofNat (0x80 + k)) = k := by
  rw [tailBits, toNat_ofNat (by omega)]
  omega

/-- The code point of a character is none of the surrogates. -/
theorem toNat_valid (c : Char) : c.toNat < 0xD800 ∨ 0xDFFF < c.toNat ∧ c.toNat < 0x110000 :=
  c.valid

/-! ## One character of each length -/

variable {a b c d : UInt8} (rest : List UInt8)

theorem decodeChars_one (ha : a < 0x80) :
    decodeChars (a :: rest) = (decodeChars rest).map (Char.ofNat a.toNat :: ·) := by
  rw [decodeChars.eq_def]
  exact if_pos ha

theorem decodeChars_two (hlow : ¬ a < 0xC2) (hhigh : a < 0xE0) (hb : isTail b = true) :
    decodeChars (a :: b :: rest) =
      (decodeChars rest).map (Char.ofNat (a.toNat % 32 * 64 + tailBits b) :: ·) := by
  have hascii : ¬ a < 0x80 := by
    simp only [UInt8.lt_iff_toNat_lt, UInt8.reduceToNat] at hlow ⊢
    omega
  rw [decodeChars.eq_def]
  simp [hascii, hlow, hhigh, hb]

theorem decodeChars_three {n : Nat} (hlow : ¬ a < 0xE0) (hhigh : a < 0xF0)
    (hb : isTail b = true) (hc : isTail c = true)
    (hn : a.toNat % 16 * 4096 + tailBits b * 64 + tailBits c = n) (hlong : 0x800 ≤ n)
    (hvalid : n < 0xD800 ∨ 0xDFFF < n) :
    decodeChars (a :: b :: c :: rest) = (decodeChars rest).map (Char.ofNat n :: ·) := by
  have hascii : ¬ a < 0x80 ∧ ¬ a < 0xC2 := by
    simp only [UInt8.lt_iff_toNat_lt, UInt8.reduceToNat] at hlow ⊢
    omega
  have hgood : (n < 0x800 || (0xD800 ≤ n && n ≤ 0xDFFF) : Bool) = false := by
    simp only [Bool.or_eq_false_iff, Bool.and_eq_false_iff, decide_eq_false_iff_not]
    omega
  rw [decodeChars.eq_def]
  simp only [hascii, hlow, hhigh, hb, hc, hn, if_true, if_false, Bool.not_true]
  rw [hgood]
  rfl

theorem decodeChars_four {n : Nat} (hlow : ¬ a < 0xF0) (hhigh : a < 0xF5)
    (hb : isTail b = true) (hc : isTail c = true) (hd : isTail d = true)
    (hn : a.toNat % 8 * 262144 + tailBits b * 4096 + tailBits c * 64 + tailBits d = n)
    (hlong : 0x10000 ≤ n) (hvalid : n ≤ 0x10FFFF) :
    decodeChars (a :: b :: c :: d :: rest) = (decodeChars rest).map (Char.ofNat n :: ·) := by
  have hascii : ¬ a < 0x80 ∧ ¬ a < 0xC2 ∧ ¬ a < 0xE0 := by
    simp only [UInt8.lt_iff_toNat_lt, UInt8.reduceToNat] at hlow ⊢
    omega
  have hgood : (!isTail d || 0xF5 ≤ a || n < 0x10000 || 0x10FFFF < n : Bool) = false := by
    simp only [hd, Bool.or_eq_false_iff, decide_eq_false_iff_not, UInt8.not_le]
    exact ⟨⟨⟨rfl, hhigh⟩, by omega⟩, by omega⟩
  rw [decodeChars.eq_def]
  simp only [hascii, hlow, hb, hc, hn, if_false, Bool.not_true]
  rw [hgood]
  rfl

/-! ## The round trip -/

/-- **A character is read back** from its octets, whatever follows. -/
theorem decodeChars_encodeChar (x : Char) :
    decodeChars (encodeChar x ++ rest) = (decodeChars rest).map (x :: ·) := by
  have hvalid := toNat_valid x
  have hchar : Char.ofNat x.toNat = x := Char.ofNat_toNat x
  simp only [encodeChar]
  generalize x.toNat = n at hvalid hchar ⊢
  have h0 := isTail_ofNat (show n % 64 < 64 by omega)
  have h1 := isTail_ofNat (show n / 64 % 64 < 64 by omega)
  have h2 := isTail_ofNat (show n / 4096 % 64 < 64 by omega)
  have b0 := tailBits_ofNat (show n % 64 < 64 by omega)
  have b1 := tailBits_ofNat (show n / 64 % 64 < 64 by omega)
  have b2 := tailBits_ofNat (show n / 4096 % 64 < 64 by omega)
  split
  · rw [List.cons_append, List.nil_append, decodeChars_one _ ((ofNat_lt (by omega) _).2 ‹n < 0x80›),
      toNat_ofNat (by omega), hchar]
  · split
    · have hlead := toNat_ofNat (show 0xC0 + n / 64 < 256 by omega)
      obtain ⟨hlow, hhigh⟩ := ofNat_between 0xC2 0xE0 (show 0xC0 + n / 64 < 256 by omega)
        (show 0xC2 ≤ 0xC0 + n / 64 by omega) (show 0xC0 + n / 64 < 0xE0 by omega)
      simp only [List.cons_append, List.nil_append]
      rw [decodeChars_two rest hlow hhigh h0, hlead, b0,
        show (0xC0 + n / 64) % 32 * 64 + n % 64 = n by omega, hchar]
    · split
      · have hlead := toNat_ofNat (show 0xE0 + n / 4096 < 256 by omega)
        obtain ⟨hlow, hhigh⟩ := ofNat_between 0xE0 0xF0 (show 0xE0 + n / 4096 < 256 by omega)
          (show 0xE0 ≤ 0xE0 + n / 4096 by omega) (show 0xE0 + n / 4096 < 0xF0 by omega)
        simp only [List.cons_append, List.nil_append]
        rw [decodeChars_three rest hlow hhigh h1 h0 (n := n) (by rw [hlead, b1, b0]; omega)
          (by omega) (by omega), hchar]
      · have hlead := toNat_ofNat (show 0xF0 + n / 262144 < 256 by omega)
        obtain ⟨hlow, hhigh⟩ := ofNat_between 0xF0 0xF5 (show 0xF0 + n / 262144 < 256 by omega)
          (show 0xF0 ≤ 0xF0 + n / 262144 by omega) (show 0xF0 + n / 262144 < 0xF5 by omega)
        simp only [List.cons_append, List.nil_append]
        rw [decodeChars_four rest hlow hhigh h2 h1 h0 (n := n) (by rw [hlead, b2, b1, b0]; omega)
          (by omega) (by omega), hchar]

theorem encodeChars_cons (x : Char) (s : List Char) :
    encodeChars (x :: s) = encodeChar x ++ encodeChars s := rfl

/-- A text is read back from its octets, whatever follows. -/
theorem decodeChars_encodeChars_append (s : List Char) :
    decodeChars (encodeChars s ++ rest) = (decodeChars rest).map (s ++ ·) := by
  induction s with
  | nil => simp [encodeChars]
  | cons x s ih =>
    rw [encodeChars_cons, List.append_assoc, decodeChars_encodeChar, ih, Option.map_map]
    rfl

theorem decodeChars_encodeChars (s : List Char) : decodeChars (encodeChars s) = some s := by
  rw [← List.append_nil (encodeChars s), decodeChars_encodeChars_append, decodeChars,
    Option.map_some, List.append_nil]

/-- **A text is read back** from its octets. -/
@[simp] theorem decode?_encode (s : String) : decode? (encode s) = some s := by
  simp only [decode?, encode, decodeChars_encodeChars, Option.map_some, String.ofList_toList]

theorem encode_injective {s t : String} (h : encode s = encode t) : s = t := by
  rw [← Option.some_inj, ← decode?_encode s, ← decode?_encode t, h]

/-! ## Texts within a text -/

theorem encodeChars_append (s t : List Char) :
    encodeChars (s ++ t) = encodeChars s ++ encodeChars t :=
  List.flatMap_append

theorem encodeChars_prefix_iff {start s : List Char} :
    encodeChars start <+: encodeChars s ↔ start <+: s := by
  constructor
  · rintro ⟨rest, hrest⟩
    have hread := decodeChars_encodeChars_append rest start
    rw [hrest, decodeChars_encodeChars] at hread
    obtain ⟨t, -, rfl⟩ := Option.map_eq_some_iff.1 hread.symm
    exact List.prefix_append start t
  · rintro ⟨rest, rfl⟩
    exact ⟨encodeChars rest, (encodeChars_append start rest).symm⟩

theorem encodeChar_of_lt {x : Char} (hx : x.toNat < 0x80) :
    encodeChar x = [UInt8.ofNat x.toNat] :=
  if_pos hx

/-- No octet but the first of a character is one of ASCII. -/
theorem exists_encodeChar_eq_cons (x : Char) :
    ∃ first tail, encodeChar x = first :: tail ∧ ∀ b ∈ tail, 0x80 ≤ b.toNat := by
  simp only [encodeChar]
  split
  · exact ⟨_, _, rfl, List.forall_mem_nil _⟩
  · split
    · exact ⟨_, _, rfl, by simp; omega⟩
    · split
      · exact ⟨_, _, rfl, by simp; omega⟩
      · exact ⟨_, _, rfl, by simp; omega⟩

/-- What occurs in octets occurs behind any of them that its first one is not among. -/
theorem infix_of_infix_append {b : UInt8} {part skipped bytes : List UInt8}
    (h : b :: part <:+: skipped ++ bytes) (hb : b ∉ skipped) : b :: part <:+: bytes := by
  induction skipped with
  | nil => exact h
  | cons o skipped ih =>
    obtain ⟨hne, hb⟩ := not_or.1 (mt List.mem_cons.2 hb)
    obtain hstart | hlater := List.infix_cons_iff.1 h
    · exact absurd (List.cons_prefix_cons.1 hstart).1 hne
    · exact ih hlater hb

/-- **A text that begins with a character of ASCII stands in another** just when
its octets stand in the octets of the other: none of them is met in the middle
of a character. -/
theorem encodeChars_infix_iff {x : Char} (hx : x.toNat < 0x80) {t s : List Char} :
    encodeChars (x :: t) <:+: encodeChars s ↔ x :: t <:+: s := by
  have hpart : encodeChars (x :: t) = UInt8.ofNat x.toNat :: encodeChars t := by
    rw [encodeChars_cons, encodeChar_of_lt hx, List.singleton_append]
  constructor
  · intro h
    induction s with
    | nil => rw [hpart] at h; cases List.infix_nil.1 h
    | cons y s ih =>
      by_cases hstart : x :: t <+: y :: s
      · exact hstart.isInfix
      · obtain ⟨first, tail, hy, htail⟩ := exists_encodeChar_eq_cons y
        rw [← encodeChars_prefix_iff] at hstart
        rw [encodeChars_cons y, hy, List.cons_append] at h hstart
        -- not at `y`, and not among its other octets: so behind it
        have hlater := (List.infix_cons_iff.1 h).resolve_left hstart
        rw [hpart] at hlater ih
        refine List.infix_cons (ih (infix_of_infix_append hlater fun hmem => ?_))
        have hlong := htail _ hmem
        rw [toNat_ofNat (by omega)] at hlong
        omega
  · rintro ⟨before, after, rfl⟩
    rw [encodeChars_append, encodeChars_append]
    exact List.infix_append _ _ _

/-! ## Characters of one octet -/

/-- A character has the number that it was made of. -/
theorem toNat_char {n : Nat} (hn : n.isValidChar) : (Char.ofNat n).toNat = n := by
  rw [Char.ofNat, dif_pos hn]
  rfl

/-- **A longer character has no octet below 128**, so whatever is counted below
128 is counted alike in a text and in its octets. -/
theorem countP_of_decodeChars {p : Nat → Bool} (hp : ∀ n, 128 ≤ n → p n = false)
    {bytes : List UInt8} {s : List Char} (h : decodeChars bytes = some s) :
    s.countP (fun c => p c.toNat) = bytes.countP fun b => p b.toNat := by
  -- of a longer form neither the character nor any octet is counted
  have hlong {n : Nat} (hn : 128 ≤ n) (hvalid : n.isValidChar) :
      p (Char.ofNat n).toNat = false := by
    rw [toNat_char hvalid]
    exact hp n hn
  have hlead {b : UInt8} (hb : ¬ b < 0x80) : p b.toNat = false :=
    hp _ (Nat.not_lt.1 fun hless => hb (UInt8.lt_iff_toNat_lt.2 hless))
  have htail {b : UInt8} (hb : ¬ (!isTail b) = true) : p b.toNat = false := by
    simp only [isTail, Bool.not_eq_true', Bool.not_eq_false, Bool.and_eq_true,
      decide_eq_true_eq] at hb
    exact hlead (UInt8.not_lt.2 hb.1)
  fun_induction decodeChars bytes generalizing s with
  | case1 =>
    obtain rfl := Option.some.inj h
    rfl
  | case2 a rest ha ih =>
    obtain ⟨s, hs, rfl⟩ := Option.map_eq_some_iff.1 h
    have hone : a.toNat < 128 := UInt8.lt_iff_toNat_lt.1 ha
    rw [List.countP_cons, List.countP_cons, ih hs, toNat_char (.inl (by omega))]
  | case6 a ha hlow b rest hb hhigh ih =>
    obtain ⟨s, hs, rfl⟩ := Option.map_eq_some_iff.1 h
    have hbits : tailBits b < 64 := Nat.mod_lt _ (by decide)
    have hrange : 194 ≤ a.toNat ∧ a.toNat < 224 :=
      ⟨Nat.not_lt.1 fun hless => hlow (UInt8.lt_iff_toNat_lt.2 hless),
        UInt8.lt_iff_toNat_lt.1 hhigh⟩
    rw [List.countP_cons, List.countP_cons, List.countP_cons, ih hs, hlead ha, htail hb,
      hlong (by omega) (.inl (by omega))]
    rfl
  | case10 a ha hlow b hb hhigh c rest hc hthree n hn =>
    rename_i ih
    obtain ⟨s, hs, rfl⟩ := Option.map_eq_some_iff.1 h
    simp only [Bool.or_eq_true, Bool.and_eq_true, decide_eq_true_eq] at hn
    have hbits : tailBits b < 64 ∧ tailBits c < 64 :=
      ⟨Nat.mod_lt _ (by decide), Nat.mod_lt _ (by decide)⟩
    have hn' : n < 65536 := by omega
    rw [List.countP_cons, List.countP_cons, List.countP_cons, List.countP_cons, ih hs, hlead ha,
      htail hb, htail hc, hlong (by omega) (by unfold Nat.isValidChar; omega)]
    rfl
  | case13 a ha hlow b hb hhigh c hc hthree d rest n hn =>
    rename_i ih
    obtain ⟨s, hs, rfl⟩ := Option.map_eq_some_iff.1 h
    simp only [Bool.or_eq_true, decide_eq_true_eq, not_or] at hn
    obtain ⟨⟨⟨hd, -⟩, hmin⟩, hmax⟩ := hn
    rw [List.countP_cons, List.countP_cons, List.countP_cons, List.countP_cons, List.countP_cons,
      ih hs, hlead ha, htail hb, htail hc, htail hd,
      hlong (by omega) (by unfold Nat.isValidChar; omega)]
    rfl
  | case3 | case4 | case5 | case7 | case8 | case9 | case11 | case12 => cases h

end Colloquy.Text.Utf8
