import Colloquy.Proofs.Text.Utf8
import Colloquy.Text.Percent
/-!
# What percent escapes change

An escape puts one octet in the place of three, so a text is changed just when
it holds one. The measure is `weight`: it counts the characters of ASCII but for
slash and point, and the octets of a text have as many of those as the text. An
escape is three of them and leaves one at most (`octets_cases`).
-/

namespace Colloquy.Text.Percent

/-- Whether a code weighs: it is one of ASCII, and neither slash nor point. -/
def weighs (n : Nat) : Bool := n < 128 && n ≠ 46 && n ≠ 47

/-- How many characters weigh. -/
def weight (s : List Char) : Nat := s.countP fun c => weighs c.toNat

theorem weight_append (s t : List Char) : weight (s ++ t) = weight s + weight t :=
  List.countP_append

theorem weight_cons (c : Char) (s : List Char) : weight (c :: s) = weight [c] + weight s :=
  weight_append [c] s

theorem weight_le_of_suffix {s t : List Char} (h : s <:+ t) : weight s ≤ weight t :=
  h.sublist.countP_le

/-- How many octets weigh. -/
def octetWeight (bytes : List UInt8) : Nat := bytes.countP fun b => weighs b.toNat

/-- Whether a text holds a percent sign with two digits behind it. -/
def Escaped (s : List Char) : Prop :=
  ∃ a b, (Hex.digitValue? a).isSome ∧ (Hex.digitValue? b).isSome ∧ ['%', a, b] <:+: s

/-- Whether an octet is one of the two digits of an escape. -/
def IsDigit (b : UInt8) : Prop := (Hex.digitValue? (Char.ofNat b.toNat)).isSome

/-- Whether octets hold a percent sign with two digits behind it. -/
def EscapedOctets (bytes : List UInt8) : Prop :=
  ∃ b c, IsDigit b ∧ IsDigit c ∧ [37, b, c] <:+: bytes

theorem weighs_of_le {n : Nat} (hn : 128 ≤ n) : weighs n = false := by
  simp only [weighs, Nat.not_lt.2 hn, decide_false, Bool.false_and]

theorem lt_of_weighs {n : Nat} (hn : weighs n = true) : n < 128 :=
  Nat.not_le.1 fun hle => Bool.noConfusion ((weighs_of_le hle).symm.trans hn)

/-- Digits weigh. -/
theorem weighs_of_isSome {c : Char} (hc : (Hex.digitValue? c).isSome) :
    weighs c.toNat = true := by
  have hranges : 48 ≤ c.toNat ∧ c.toNat ≤ 57 ∨ 97 ≤ c.toNat ∧ c.toNat ≤ 102 ∨
      65 ≤ c.toNat ∧ c.toNat ≤ 70 := by
    simp only [Hex.digitValue?, Bool.and_eq_true, decide_eq_true_eq] at hc
    split at hc
    · exact .inl ‹_›
    · split at hc
      · exact .inr (.inl ‹_›)
      · split at hc
        · exact .inr (.inr ‹_›)
        · cases hc
  simp only [weighs, Bool.and_eq_true, decide_eq_true_eq]
  omega

/-- An octet's character has the octet's number. -/
theorem toNat_ofNat_toNat (b : UInt8) : (Char.ofNat b.toNat).toNat = b.toNat :=
  Utf8.toNat_char (.inl (Nat.lt_trans b.toNat_lt (by decide)))

theorem IsDigit.weighs {b : UInt8} (hb : IsDigit b) : weighs b.toNat = true := by
  rw [← toNat_ofNat_toNat b]
  exact weighs_of_isSome hb

/-! ## Escapes in octets -/

variable {a b c : UInt8} {rest : List UInt8}

theorem octetWeight_cons (a : UInt8) (rest : List UInt8) :
    octetWeight (a :: rest) = octetWeight rest + if weighs a.toNat then 1 else 0 :=
  List.countP_cons

/-- An escape weighs three. -/
theorem octetWeight_escape (hb : IsDigit b) (hc : IsDigit c) :
    octetWeight (37 :: b :: c :: rest) = octetWeight rest + 3 := by
  rw [octetWeight_cons, octetWeight_cons, octetWeight_cons, hb.weighs, hc.weighs]
  rfl

/-- An escape begins where the octets do, or stands in what follows the first. -/
theorem escapedOctets_cons_iff :
    EscapedOctets (a :: b :: c :: rest) ↔
      a = 37 ∧ IsDigit b ∧ IsDigit c ∨ EscapedOctets (b :: c :: rest) := by
  constructor
  · rintro ⟨b', c', hb, hc, hin⟩
    obtain hstart | hlater := List.infix_cons_iff.1 hin
    · simp only [List.cons_prefix_cons] at hstart
      obtain ⟨rfl, rfl, rfl, -⟩ := hstart
      exact .inl ⟨rfl, hb, hc⟩
    · exact .inr ⟨b', c', hb, hc, hlater⟩
  · rintro (⟨rfl, hb, hc⟩ | ⟨b', c', hb, hc, hin⟩)
    · exact ⟨b, c, hb, hc, [], rest, rfl⟩
    · exact ⟨b', c', hb, hc, List.infix_cons hin⟩

theorem not_escapedOctets_of_length_lt {bytes : List UInt8} (hlen : bytes.length < 3) :
    ¬ EscapedOctets bytes := by
  rintro ⟨b, c, -, -, hin⟩
  exact absurd hin.length_le (Nat.not_le.2 hlen)

/-- **Octets without an escape stand for themselves**, and those with one weigh
more than what they stand for. -/
theorem octets_cases (bytes : List UInt8) :
    octets bytes = bytes ∧ ¬ EscapedOctets bytes ∨
      octetWeight (octets bytes) < octetWeight bytes ∧ EscapedOctets bytes := by
  fun_induction octets bytes with
  | case1 | case2 | case3 => exact .inl ⟨rfl, not_escapedOctets_of_length_lt (by simp)⟩
  | case4 a b c rest digit? high low hlow hhigh ih =>
    obtain ⟨rfl, hb⟩ := Option.ite_none_right_eq_some.1 hhigh
    have hb : IsDigit b := Option.isSome_of_eq_some hb
    have hc : IsDigit c := Option.isSome_of_eq_some hlow
    have hrest : octetWeight (octets rest) ≤ octetWeight rest := by
      obtain ⟨heq, -⟩ | ⟨hlt, -⟩ := ih
      · exact Nat.le_of_eq (congrArg octetWeight heq)
      · exact Nat.le_of_lt hlt
    refine .inr ⟨?_, b, c, hb, hc, [], rest, rfl⟩
    -- three octets that weigh give way to one, which may weigh or not
    rw [octetWeight_escape hb hc, octetWeight_cons]
    split <;> omega
  | case5 a b c rest digit? hnone ih =>
    have hhead : ¬ (a = 37 ∧ IsDigit b ∧ IsDigit c) := by
      rintro ⟨ha, hb, hc⟩
      obtain ⟨high, hhigh⟩ := Option.isSome_iff_exists.1 hb
      obtain ⟨low, hlow⟩ := Option.isSome_iff_exists.1 hc
      exact hnone high low ((if_pos ha).trans hhigh) hlow
    -- no escape begins here, so there is one just when there is one further on
    rw [escapedOctets_cons_iff, or_iff_right hhead, octetWeight_cons, octetWeight_cons]
    obtain ⟨heq, hfree⟩ | ⟨hlt, hescaped⟩ := ih
    · exact .inl ⟨congrArg (a :: ·) heq, hfree⟩
    · exact .inr ⟨Nat.add_lt_add_right hlt _, hescaped⟩

/-! ## Escapes in a text -/

theorem octetWeight_encodeChars (s : List Char) : octetWeight (Utf8.encodeChars s) = weight s :=
  (Utf8.countP_of_decodeChars (fun _ => weighs_of_le) (Utf8.decodeChars_encodeChars s)).symm

theorem isDigit_ofNat {x : Char} (hx : (Hex.digitValue? x).isSome) :
    x.toNat < 0x80 ∧ IsDigit (UInt8.ofNat x.toNat) := by
  have hlt := lt_of_weighs (weighs_of_isSome hx)
  refine ⟨hlt, ?_⟩
  rw [IsDigit, Utf8.toNat_ofNat (by omega), Char.ofNat_toNat]
  exact hx

/-- The octets of a text hold the escapes of the text. -/
theorem escapedOctets_encodeChars_iff {s : List Char} :
    EscapedOctets (Utf8.encodeChars s) ↔ Escaped s := by
  have hthree {x y : Char} (hx : x.toNat < 0x80) (hy : y.toNat < 0x80) :
      Utf8.encodeChars ['%', x, y] = [37, UInt8.ofNat x.toNat, UInt8.ofNat y.toNat] := by
    simp only [Utf8.encodeChars, List.flatMap_cons, List.flatMap_nil, Utf8.encodeChar_of_lt hx,
      Utf8.encodeChar_of_lt hy]
    rfl
  constructor
  · rintro ⟨b, c, hb, hc, hin⟩
    have hx := lt_of_weighs (weighs_of_isSome hb)
    have hy := lt_of_weighs (weighs_of_isSome hc)
    refine ⟨Char.ofNat b.toNat, Char.ofNat c.toNat, hb, hc,
      (Utf8.encodeChars_infix_iff (by decide)).1 ?_⟩
    rw [hthree hx hy, toNat_ofNat_toNat, toNat_ofNat_toNat, UInt8.ofNat_toNat, UInt8.ofNat_toNat]
    exact hin
  · rintro ⟨x, y, hx, hy, hin⟩
    have hin := (Utf8.encodeChars_infix_iff (by decide)).2 hin
    obtain ⟨hxlt, hx⟩ := isDigit_ofNat hx
    obtain ⟨hylt, hy⟩ := isDigit_ofNat hy
    rw [hthree hxlt hylt] at hin
    exact ⟨_, _, hx, hy, hin⟩

/-- A text without an escape stands for itself. -/
theorem decode?_of_not_escaped {text : String} (h : ¬ Escaped text.toList) :
    decode? text = some text := by
  obtain ⟨heq, -⟩ | ⟨-, hescaped⟩ := octets_cases (Utf8.encode text)
  · rw [decode?, heq, Utf8.decode?_encode]
  · exact absurd (escapedOctets_encodeChars_iff.1 hescaped) h

/-- A text with one stands for none, or for a text that weighs less. -/
theorem weight_lt_of_decode? {text other : String} (h : decode? text = some other)
    (hescaped : Escaped text.toList) : weight other.toList < weight text.toList := by
  obtain ⟨s, hs, rfl⟩ := Option.map_eq_some_iff.1 h
  obtain ⟨-, hfree⟩ | ⟨hlt, -⟩ := octets_cases (Utf8.encode text)
  · exact absurd (escapedOctets_encodeChars_iff.2 hescaped) hfree
  · calc weight (String.ofList s).toList
        = octetWeight (octets (Utf8.encode text)) := by
          rw [String.toList_ofList]
          exact Utf8.countP_of_decodeChars (fun _ => weighs_of_le) hs
      _ < octetWeight (Utf8.encode text) := hlt
      _ = weight text.toList := octetWeight_encodeChars text.toList

end Colloquy.Text.Percent
