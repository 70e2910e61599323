import Colloquy.Json.Reader
import Colloquy.Json.Printer
/-!
# Texts and counts in JSON

A text is read up to the quote that closes it, whatever its characters are: what is
escaped is told by its backslash, and everything else stands for itself
(`textBody_escaped`). A count of 64 bits is read digit by digit, up to the first
character that is no part of a numeral (`signedNumeral_count`).
-/

namespace Colloquy.Json

/-! ## Texts -/

/-- A letter behind a backslash stands for a character. -/
theorem textBody_letter {letter c : Char} (hletter : letter ≠ 'u')
    (h : unescape? letter = some c) (s : List Char) :
    textBody ('\\' :: letter :: s) = (textBody s).map fun (t, rest) => (c :: t, rest) := by
  rw [textBody, h]
  exact fun _ _ _ _ _ hu _ => hletter hu

/-- A control character is told by the number of its escape. -/
theorem textBody_control {c : Char} (h : c.toNat < 32) (s : List Char) :
    textBody (['\\', 'u', '0', '0', Text.Hex.digit (c.toNat / 16),
        Text.Hex.digit (c.toNat % 16)] ++ s) =
      (textBody s).map fun (t, rest) => (c :: t, rest) := by
  have hall : ∀ n : Fin 32,
      unit? '0' '0' (Text.Hex.digit (n / 16)) (Text.Hex.digit (n % 16)) = some n.val := by
    decide
  have hunit := hall ⟨c.toNat, h⟩
  simp only [List.cons_append, List.nil_append]
  rw [textBody, hunit]
  simp only [if_neg (show ¬ (0xDC00 ≤ c.toNat ∧ c.toNat ≤ 0xDFFF) by omega),
    if_neg (show ¬ (0xD800 ≤ c.toNat ∧ c.toNat ≤ 0xDBFF) by omega), Bool.and_eq_true,
    decide_eq_true_eq, Char.ofNat_toNat]

/-- Any other character stands for itself. -/
theorem textBody_plain {c : Char} (hquote : c ≠ '"') (hbackslash : c ≠ '\\')
    (hcontrol : 32 ≤ c.toNat) (s : List Char) :
    textBody (c :: s) = (textBody s).map fun (t, rest) => (c :: t, rest) := by
  rw [textBody, if_neg (Nat.not_lt.2 hcontrol)]
  · exact hquote
  · exact fun _ _ _ _ _ hc _ => hbackslash hc
  · exact fun _ _ hc _ => hbackslash hc

/-- A character is read back from its escaped form. -/
theorem textBody_escapeChar (c : Char) (s : List Char) :
    textBody (escapeChar c ++ s) = (textBody s).map fun (t, rest) => (c :: t, rest) := by
  rw [escapeChar]
  split
  · subst c; exact textBody_letter (by decide) (by decide) s
  split
  · subst c; exact textBody_letter (by decide) (by decide) s
  split
  · subst c; exact textBody_letter (by decide) (by decide) s
  split
  · subst c; exact textBody_letter (by decide) (by decide) s
  split
  · subst c; exact textBody_letter (by decide) (by decide) s
  split
  · obtain rfl : Char.ofNat 8 = c := by rw [← ‹c.toNat = 8›, Char.ofNat_toNat]
    exact textBody_letter (by decide) (by decide) s
  split
  · obtain rfl : Char.ofNat 12 = c := by rw [← ‹c.toNat = 12›, Char.ofNat_toNat]
    exact textBody_letter (by decide) (by decide) s
  split
  · exact textBody_control ‹_› s
  · exact textBody_plain ‹_› ‹_› (Nat.not_lt.1 ‹_›) s

/-- **A text is read up to its closing quote.** -/
theorem textBody_escaped (t rest : List Char) :
    textBody (t.flatMap escapeChar ++ '"' :: rest) = .ok (t, rest) := by
  induction t with
  | nil => rw [List.flatMap_nil, List.nil_append, textBody]
  | cons c t ih => rw [List.flatMap_cons, List.append_assoc, textBody_escapeChar, ih]; rfl

/-! ## Counts -/

/-- What follows a value: nothing that could belong to a numeral. -/
def Closes (rest : List Char) : Prop :=
  ∀ c ∈ rest.head?, isDigit c = false ∧ c ≠ '.' ∧ c ≠ 'e' ∧ c ≠ 'E'

/-- Digits are gathered while the number fits 64 bits. -/
theorem gather_eq {digits : List Char} {significand taken : Nat}
    (h : Nat.ofDigitChars 10 digits significand < Nat.pow 2 64) :
    gather significand taken digits =
      (Nat.ofDigitChars 10 digits significand, taken + digits.length) := by
  induction digits generalizing significand taken with
  | nil => rfl
  | cons c digits ih =>
    have hnext : 10 * significand + (c.toNat - '0'.toNat) = significand * 10 + digitValue c := by
      rw [Nat.mul_comm]; rfl
    rw [Nat.ofDigitChars_cons, hnext] at h ⊢
    have hle : significand * 10 + digitValue c ≤
        Nat.ofDigitChars 10 digits (significand * 10 + digitValue c) := by
      rw [Nat.ofDigitChars_eq_ofDigitChars_zero]
      exact Nat.le_trans (Nat.le_mul_of_pos_left _ (Nat.pow_pos (by decide))) (Nat.le_add_right _ _)
    rw [gather, if_pos (Nat.lt_of_le_of_lt hle h), ih h, List.length_cons]
    simp only [Prod.mk.injEq, true_and]
    omega

/-- The digits of a number that is not zero do not begin with a zero. -/
theorem head?_toDigits {n : Nat} (h : 0 < n) : (Nat.toDigits 10 n).head? ≠ some '0' := by
  induction n using Nat.strongRecOn with
  | _ n ih =>
    rcases Nat.lt_or_ge n 10 with hone | hmore
    · have hall : ∀ k : Fin 10, 0 < k.val → k.val.digitChar ≠ '0' := by decide
      rw [Nat.toDigits_of_lt_base hone]
      exact fun hzero => hall ⟨n, hone⟩ h (Option.some.inj hzero)
    · obtain ⟨c, front, hfront⟩ :=
        List.exists_cons_of_ne_nil (Nat.toDigits_ne_nil (n := n / 10) (b := 10))
      have hhead := ih (n / 10) (by omega) (by omega)
      rw [hfront] at hhead
      rw [Nat.toDigits_of_base_le (by decide) hmore, hfront]
      exact hhead

/-- The digits in front of what closes a numeral. -/
theorem splitDigits_append {digits rest : List Char} (hdigits : ∀ c ∈ digits, isDigit c = true)
    (hrest : Closes rest) : splitDigits (digits ++ rest) = (digits, rest) := by
  have hstop : rest.takeWhile isDigit = [] ∧ rest.dropWhile isDigit = rest := by
    cases rest with
    | nil => exact ⟨rfl, rfl⟩
    | cons c rest =>
      have hc := (hrest c rfl).1
      rw [List.takeWhile_cons, List.dropWhile_cons, hc]
      exact ⟨rfl, rfl⟩
  rw [splitDigits, List.takeWhile_append_of_pos hdigits, List.dropWhile_append_of_pos hdigits,
    hstop.1, hstop.2, List.append_nil]

/-- **A count of 64 bits is read back** from its digits. -/
theorem numeral?_count {n : Nat} (hn : n < Nat.pow 2 64) {rest : List Char} (hrest : Closes rest) :
    numeral? false (Nat.toDigits 10 n ++ rest) = some (.int n, rest) := by
  have hdigits : ∀ c ∈ Nat.toDigits 10 n, isDigit c = true := fun c hc =>
    Nat.isDigit_of_mem_toDigits (by decide) (by decide) hc
  have hgather : gather 0 0 (Nat.toDigits 10 n) = _ :=
    gather_eq (by rwa [Nat.ofDigitChars_ten_toDigits])
  rw [Nat.ofDigitChars_ten_toDigits, Nat.zero_add] at hgather
  have hform : ((Nat.toDigits 10 n).isEmpty ||
      ((Nat.toDigits 10 n).head? = some '0' && 1 < (Nat.toDigits 10 n).length)) = false := by
    rcases Nat.eq_zero_or_pos n with rfl | hpos
    · rfl
    · simp [head?_toDigits hpos, Nat.toDigits_ne_nil]
  rw [numeral?, splitDigits_append hdigits hrest]
  simp only [hform, hgather, Nat.sub_self]
  cases rest with
  | nil => rfl
  | cons c rest =>
    obtain ⟨-, hpoint, he, hE⟩ := hrest c rfl
    simp [hpoint, he, hE]

/-- The digits of a count begin with one. -/
theorem digits_count (n : Nat) :
    ∃ c front, (toString (n : Int)).toList = c :: front ∧ Nat.toDigits 10 n = c :: front ∧
      isDigit c = true := by
  have hdigits : (toString (n : Int)).toList = Nat.toDigits 10 n := Nat.toList_repr
  obtain ⟨c, front, hfront⟩ := List.exists_cons_of_ne_nil (Nat.toDigits_ne_nil (n := n) (b := 10))
  exact ⟨c, front, hdigits.trans hfront, hfront,
    Nat.isDigit_of_mem_toDigits (b := 10) (n := n) (by decide) (by decide) (hfront ▸ .head _)⟩

theorem signedNumeral_count {n : Nat} (hn : n < Nat.pow 2 64) {rest : List Char}
    (hrest : Closes rest) :
    signedNumeral ((toString (n : Int)).toList ++ rest) = .ok (.int n, rest) := by
  obtain ⟨c, front, htext, hdigits, hc⟩ := digits_count n
  have hcount := numeral?_count hn hrest
  rw [hdigits, List.cons_append] at hcount
  rw [htext, List.cons_append, signedNumeral, hcount]
  rintro _ h
  obtain rfl := (List.cons.inj h).1
  exact absurd hc (by decide)

end Colloquy.Json
