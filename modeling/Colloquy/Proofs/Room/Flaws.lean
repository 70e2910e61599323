import Colloquy.Proofs.Cipher.Reading
import Colloquy.Proofs.Room
/-!
# Why a stored text is no key

A text that is refused as a key is refused for a flaw: it is not the written form
of bytes, or it is that of too many or too few of them. The wording of a flaw tells
the flaw (`Flaw.message_injective`). Some flaws name a byte of the text and its place;
the others say how long the text is and how much padding it has, and nothing more
(`Flaw.Shows`).
-/

namespace Colloquy

/-! ## Numbers in a wording -/

/-- A number that is written in front of a text is told from it, unless the text goes
on with a digit. -/
theorem Text.digits_inj {m n : Nat} {s t : List Char} (hs : s.takeWhile Char.isDigit = [])
    (ht : t.takeWhile Char.isDigit = [])
    (h : (toString m).toList ++ s = (toString n).toList ++ t) : m = n ∧ s = t := by
  have hnumber : ∀ (k : Nat) {u : List Char}, u.takeWhile Char.isDigit = [] →
      ((toString k).toList ++ u).takeWhile Char.isDigit = Nat.toDigits 10 k := fun k u hu => by
    rw [Nat.toString_eq_repr, Nat.toList_repr, List.takeWhile_append_of_pos, hu, List.append_nil]
    exact fun c hc => Nat.isDigit_of_mem_toDigits (by decide) (by decide) hc
  have hdigits : Nat.toDigits 10 m = Nat.toDigits 10 n := by
    rw [← hnumber m hs, ← hnumber n ht, h]
  have hmn : m = n := by
    rw [← Nat.ofDigitChars_ten_toDigits (n := m), hdigits, Nat.ofDigitChars_ten_toDigits]
  subst hmn
  exact ⟨rfl, List.append_cancel_left h⟩

theorem Text.toString_inj {m n : Nat} (h : toString m = toString n) : m = n :=
  (digits_inj (s := []) (t := []) rfl rfl (congrArg (String.toList · ++ []) h)).1

/-- A character near the front of a text is there whatever follows. -/
theorem Text.at_of_opening (opening : String) {c : Char} {i : Nat}
    (h : opening.toList[i]? = some c) (rest : String) :
    (opening ++ rest).toList[i]? = some c := by
  have hi := (List.getElem?_eq_some_iff.1 h).1
  rw [String.toList_append, List.getElem?_append_left hi]
  exact h

namespace Base64.Fault

/-- The character in which the wordings of faults differ. -/
def mark : Fault → Char
  | .symbol _ _ => 's'
  | .length _ => 'i'
  | .padding => 'p'
  | .lastSymbol _ _ => 'l'

/-- The front of a wording stands in front of the byte and the place that it names. -/
theorem at_of_placed (opening : String) {c : Char} {i : Nat} (h : opening.toList[i]? = some c)
    (byte : UInt8) (offset : Nat) :
    (opening ++ toString byte.toNat ++ ", offset " ++ toString offset ++ ".").toList[i]? =
      some c := by
  have hbyte := Text.at_of_opening _ h (toString byte.toNat)
  have hplace := Text.at_of_opening _ (Text.at_of_opening _ hbyte ", offset ") (toString offset)
  exact Text.at_of_opening _ hplace "."

theorem mark_of_message (fault : Fault) : fault.message.toList[8]? = some fault.mark := by
  match fault with
  | .symbol byte offset =>
    have hs : "Invalid symbol ".toList[8]? = some 's' := by decide +kernel
    exact at_of_placed _ hs byte offset
  | .length count =>
    have hi : "Invalid input length: ".toList[8]? = some 'i' := by decide +kernel
    exact Text.at_of_opening _ hi _
  | .padding => decide +kernel
  | .lastSymbol byte offset =>
    have hl : "Invalid last symbol ".toList[8]? = some 'l' := by decide +kernel
    exact at_of_placed _ hl byte offset

theorem mark_ne_space (fault : Fault) : fault.mark ≠ ' ' := by
  cases fault <;> simp only [mark] <;> decide

/-- A byte and its place are told from the wording that they stand in. -/
theorem placed_inj {opening : String} {b c : UInt8} {i j : Nat}
    (h : opening ++ toString b.toNat ++ ", offset " ++ toString i ++ "." =
      opening ++ toString c.toNat ++ ", offset " ++ toString j ++ ".") : b = c ∧ i = j := by
  have hchars := congrArg String.toList h
  simp only [String.toList_append, List.append_assoc] at hchars
  obtain ⟨hbyte, hrest⟩ := Text.digits_inj rfl rfl (List.append_cancel_left hchars)
  obtain ⟨hplace, -⟩ := Text.digits_inj rfl rfl (List.append_cancel_left hrest)
  exact ⟨UInt8.toNat_inj.1 hbyte, hplace⟩

/-- **The wording of a fault tells the fault.** -/
theorem message_injective {f g : Fault} (h : f.message = g.message) : f = g := by
  have hmark : f.mark = g.mark := by
    rw [← Option.some_inj, ← mark_of_message, ← mark_of_message, h]
  match f, g, hmark with
  | .symbol b i, .symbol c j, _ =>
    obtain ⟨rfl, rfl⟩ := placed_inj h
    rfl
  | .lastSymbol b i, .lastSymbol c j, _ =>
    obtain ⟨rfl, rfl⟩ := placed_inj h
    rfl
  | .length m, .length n, _ =>
    rw [Text.toString_inj ((String.append_right_inj _).1 h)]
  | .padding, .padding, _ => rfl

end Base64.Fault

namespace RoomKey

/-- Why a text is no key. -/
inductive Flaw where
  /-- It is not the written form of bytes. -/
  | unwritten (fault : Base64.Fault)
  /-- It is that of another number of bytes than a key has. -/
  | size (count : Nat)
deriving DecidableEq, Repr

namespace Flaw

/-- The wording of a flaw. -/
def message : Flaw → String
  | .unwritten fault => fault.message
  | .size count => "expected 32 bytes, got " ++ toString count

/-- The byte that a flaw names, and its place in the text. -/
def named? : Flaw → Option (UInt8 × Nat)
  | .unwritten (.symbol byte offset) => some (byte, offset)
  | .unwritten (.lastSymbol byte offset) => some (byte, offset)
  | _ => none

/-- The flaw of a text of a length with some padding bytes, when it names none. -/
def ofShape (length pads : Nat) : Flaw :=
  if length % 4 = 0 then .size (3 * length / 4 - pads)
  else if length % 4 = 1 then .unwritten (.length length)
  else .unwritten .padding

/-- What a flaw shows of the bytes of a text: the byte that it names, or their number
and that of the padding. -/
def Shows (bytes : List UInt8) (flaw : Flaw) : Prop :=
  match flaw.named? with
  | some (byte, offset) => bytes[offset]? = some byte
  | none => flaw = ofShape bytes.length (bytes.count Base64.pad)

/-- A flaw that names no byte is known from the length of the text and its padding. -/
theorem Shows.of_unnamed {bytes : List UInt8} {flaw : Flaw} (h : flaw.Shows bytes)
    (hnone : flaw.named? = none) : flaw = ofShape bytes.length (bytes.count Base64.pad) := by
  rw [Shows, hnone] at h
  exact h

/-- **The wording of a flaw tells the flaw.** -/
theorem message_injective {f g : Flaw} (h : f.message = g.message) : f = g := by
  have hother : ∀ (fault : Base64.Fault) (count : Nat),
      fault.message ≠ "expected 32 bytes, got " ++ toString count := fun fault count hsame => by
    have hspace : "expected 32 bytes, got ".toList[8]? = some ' ' := by decide +kernel
    have hspace := Text.at_of_opening _ hspace (toString count)
    rw [← hsame, fault.mark_of_message] at hspace
    exact fault.mark_ne_space (Option.some.inj hspace)
  match f, g with
  | .unwritten f, .unwritten g => rw [Base64.Fault.message_injective h]
  | .unwritten f, .size n => exact absurd h (hother f n)
  | .size m, .unwritten g => exact absurd h.symm (hother g m)
  | .size m, .size n => rw [Text.toString_inj ((String.append_right_inj _).1 h)]

end Flaw

/-- The bytes of a text that are read as a key. -/
def readBytes (text : String) : List UInt8 := Text.Utf8.encode (Text.trim text)

theorem shows_of_fault {bytes : List UInt8} {fault : Base64.Fault} (h : fault.Shows 0 bytes) :
    (Flaw.unwritten fault).Shows bytes := by
  cases fault with
  | symbol byte offset =>
    obtain ⟨i, rfl, hbyte⟩ := h
    rw [Nat.zero_add]
    exact hbyte
  | lastSymbol byte offset =>
    obtain ⟨i, rfl, hbyte⟩ := h
    rw [Nat.zero_add]
    exact hbyte
  | length count =>
    obtain ⟨rfl, hone⟩ := h
    show _ = Flaw.ofShape _ _
    rw [Flaw.ofShape, if_neg (by omega), if_pos hone, Nat.zero_add]
  | padding =>
    have hmore : 2 ≤ bytes.length % 4 := h
    show _ = Flaw.ofShape _ _
    rw [Flaw.ofShape, if_neg (by omega), if_neg (by omega)]

/-- The written form of any number of bytes shows how many they are. -/
theorem shows_of_size (bytes : List UInt8) :
    (Flaw.size bytes.length).Shows (Base64.encodeBytes bytes) := by
  have hlength := Base64.three_mul_length_encodeBytes bytes
  show _ = Flaw.ofShape _ _
  rw [Flaw.ofShape, if_pos (Base64.length_encodeBytes bytes)]
  congr 1
  omega

/-- **A text is refused for a flaw that it shows.** -/
theorem flaw_of_decode {text : String} {e : CipherError} (h : decode text = .error e) :
    ∃ flaw : Flaw, e = .invalidKey flaw.message ∧ flaw.Shows (readBytes text) := by
  rw [decode] at h
  cases hread : Base64.decode (readBytes text) with
  | error fault =>
    rw [readBytes] at hread
    rw [hread] at h
    cases h
    exact ⟨.unwritten fault, rfl, shows_of_fault (Base64.shows_of_decode hread)⟩
  | ok bytes =>
    have hwritten := Base64.eq_encodeBytes_of_decode hread
    rw [readBytes] at hread
    rw [hread] at h
    by_cases hlength : bytes.length = 32
    · simp only [ofBytes?, dif_pos hlength] at h
      cases h
    · simp only [ofBytes?, dif_neg hlength] at h
      cases h
      exact ⟨.size bytes.length, rfl, hwritten ▸ shows_of_size bytes⟩

end RoomKey

end Colloquy
