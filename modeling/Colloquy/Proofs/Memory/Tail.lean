import Colloquy.Memory.Window
/-!
# The last characters of a text

A tail is counted in characters and cut off at an octet. `offsets_append` says
where the octets of a front end, and `sliceFrom?_append` that a text can be cut
there, so that a tail is what stands behind some front (`tailChars_append`).
-/

namespace Colloquy.Memory

theorem utf8ByteSize_cons (c : Char) (s : List Char) :
    (String.ofList (c :: s)).utf8ByteSize = c.utf8Size + (String.ofList s).utf8ByteSize := by
  rw [String.ofList_cons, String.utf8ByteSize_append, String.utf8ByteSize_singleton]

/-- The characters in front of a character take the octets in front of it. -/
theorem offsets_append (start : Nat) (front back : List Char) :
    ((offsets start (front ++ back))[front.length]?).getD
        (start + (String.ofList (front ++ back)).utf8ByteSize) =
      start + (String.ofList front).utf8ByteSize := by
  induction front generalizing start with
  | nil => cases back <;> simp [offsets]
  | cons c front ih =>
    rw [List.cons_append, offsets, List.length_cons, List.getElem?_cons_succ, utf8ByteSize_cons,
      utf8ByteSize_cons, ← Nat.add_assoc, ← Nat.add_assoc, ih]

/-- **A text can be cut between two characters**, and nowhere is anything lost. -/
theorem sliceFrom?_append (front back : String) :
    sliceFrom? (front ++ back) front.utf8ByteSize = some back := by
  have hvalid : String.Pos.Raw.IsValid (front ++ back) ⟨front.utf8ByteSize⟩ :=
    String.Pos.Raw.isValid_iff_exists_append.2 ⟨front, back, rfl, rfl⟩
  have hpos : (front ++ back).pos? ⟨front.utf8ByteSize⟩ = some ((front ++ back).pos _ hvalid) := by
    simpa [String.pos?, String.pos, String.Slice.pos?] using hvalid
  have hsplits : ((front ++ back).pos _ hvalid).Splits front back := ⟨rfl, by simp; rfl⟩
  rw [sliceFrom?, hpos, Option.map_some, hsplits.copy_sliceFrom_eq]

/-! ## A text as its front and its tail -/

variable {front back : String} {count : Nat}

/-- The tail of a text begins where its front ends. -/
theorem tailStart_append (hcount : back.length = min count (front ++ back).length) :
    tailStart (front ++ back) count = front.utf8ByteSize := by
  have hoffset := offsets_append 0 front.toList back.toList
  have hfront : (front ++ back).length - count = front.toList.length := by
    rw [String.length_append] at hcount ⊢
    rw [String.length_toList]
    omega
  rw [← String.toList_append, String.ofList_toList, String.ofList_toList, Nat.zero_add,
    Nat.zero_add] at hoffset
  rw [tailStart, hfront, hoffset]

/-- The tail of a text is what stands behind its front. -/
theorem tailChars_append (hcount : back.length = min count (front ++ back).length) :
    tailChars (front ++ back) count = back := by
  rw [tailChars]
  split
  next hall =>
    -- where nothing is cut off, the front is empty
    have hnone : front.length = 0 := by
      rw [String.length_append] at hall hcount
      omega
    rw [String.length_eq_zero_iff.1 hnone, String.empty_append]
  next => rw [tailStart_append hcount, sliceFrom?_append, Option.getD_some]

/-- Every text has a tail of as many characters as are wanted and there are. -/
theorem exists_append (text : String) (count : Nat) :
    ∃ front back, text = front ++ back ∧ back.length = min count text.length := by
  refine ⟨String.ofList (text.toList.take (text.toList.length - count)),
    String.ofList (text.toList.drop (text.toList.length - count)), ?_, ?_⟩
  · rw [← String.ofList_append, List.take_append_drop, String.ofList_toList]
  · rw [String.length_ofList, List.length_drop, String.length_toList]
    omega

/-- The last characters of a text are its end, and as many as there can be. -/
theorem tailChars_split (text : String) (count : Nat) :
    ∃ front, text = front ++ tailChars text count ∧
      (tailChars text count).length = min count text.length := by
  obtain ⟨front, back, rfl, hcount⟩ := exists_append text count
  rw [tailChars_append hcount]
  exact ⟨front, rfl, hcount⟩

/-- **A tail is cut off between two characters.** For every text and count the text
is some front with its last characters behind it, which are as many as are wanted
and there are. They begin at the octet where the front ends, and a slice from there
exists and is them. -/
theorem tail_cut_between_characters (text : String) (count : Nat) :
    ∃ front, text = front ++ tailChars text count ∧
      (tailChars text count).length = min count text.length ∧
      tailStart text count = front.utf8ByteSize ∧
      sliceFrom? text (tailStart text count) = some (tailChars text count) := by
  obtain ⟨front, back, rfl, hcount⟩ := exists_append text count
  rw [tailChars_append hcount, tailStart_append hcount]
  exact ⟨front, rfl, hcount, rfl, sliceFrom?_append front back⟩

/-- The last two of five characters, of which the fourth takes the octets 4 and 5. -/
example : tailStart "añoñé" 2 = 4 ∧ sliceFrom? "añoñé" 4 = some "ñé" ∧ sliceFrom? "añoñé" 5 = none :=
  by decide

end Colloquy.Memory
