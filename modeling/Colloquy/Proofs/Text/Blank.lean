import Mathlib.Data.List.DropRight
import Mathlib.Data.List.TakeWhile
import Colloquy.Text.Blank
/-!
# Blanks around a text

Trimming takes off the blanks before and behind a text and nothing else. So of a
text that has no blanks itself it makes every trimmed form with blanks around it
(`trim_eq_iff`), and a text with no blank at either end is trimmed already
(`trimChars_eq_self`). A text with words in it (`HasWords`) holds more than blanks.
-/

namespace Colloquy.Text

/-- A text that holds more than blanks. -/
def HasWords (s : String) : Prop := ∃ c ∈ s.toList, isBlank c = false

theorem isBlankText_eq_false_iff {s : String} : isBlankText s = false ↔ HasWords s := by
  simp only [isBlankText, List.all_eq_false, Bool.not_eq_true, HasWords]

instance (s : String) : Decidable (HasWords s) :=
  decidable_of_iff (isBlankText s = false) isBlankText_eq_false_iff

/-- A text that does not end in a blank. -/
def EndsPlain (s : List Char) : Prop := ∀ c ∈ s.getLast?, isBlank c = false

instance (s : List Char) : Decidable (EndsPlain s) :=
  match h : s.getLast? with
  | none => .isTrue fun c hc => by rw [h] at hc; cases hc
  | some c => decidable_of_iff (isBlank c = false) ⟨
      fun hc x hx => by rw [h] at hx; cases hx; exact hc,
      fun hs => hs c h⟩

/-- What comes before the end does not count. -/
theorem endsPlain_append {s t : List Char} (ht : t ≠ []) : EndsPlain (s ++ t) ↔ EndsPlain t := by
  rw [EndsPlain, EndsPlain, List.getLast?_append_of_ne_nil s ht]

theorem endsPlain_cons {c : Char} {t : List Char} (ht : t ≠ []) :
    EndsPlain (c :: t) ↔ EndsPlain t :=
  endsPlain_append (s := [c]) ht

theorem not_endsPlain_concat (s : List Char) {c : Char} (hc : isBlank c = true) :
    ¬ EndsPlain (s ++ [c]) := fun h => by
  have hplain := h c (by rw [List.getLast?_concat]; rfl)
  rw [hc] at hplain
  cases hplain

/-- A trimmed text does not end in a blank. -/
theorem endsPlain_trimChars (s : List Char) : EndsPlain (trimChars s) := by
  intro c hc
  have hne : trimChars s ≠ [] := by rintro hnil; rw [hnil] at hc; cases hc
  rw [List.getLast?_eq_some_getLast hne, Option.mem_some_iff] at hc
  have hlast := List.rdropWhile_last_not isBlank (trimStart s) hne
  rw [← hc]
  exact Bool.eq_false_iff.2 hlast

/-- A text with no blank at either end stays as it is. -/
theorem trimChars_eq_self {s : List Char} (hstart : ∀ c ∈ s.head?, isBlank c = false)
    (hend : EndsPlain s) : trimChars s = s := by
  have hfront : trimStart s = s := by
    cases s with
    | nil => rfl
    | cons c rest => exact List.dropWhile_cons_of_neg (by rw [hstart c rfl]; decide)
  rw [trimChars, hfront]
  refine List.rdropWhile_eq_self_iff.2 fun hne hblank => ?_
  rw [hend _ (List.getLast?_eq_some_getLast hne)] at hblank
  cases hblank

/-- What is trimmed is between the blanks. -/
theorem trimChars_between (s : List Char) :
    ∃ before after, (∀ c ∈ before ++ after, isBlank c = true) ∧
      s = before ++ trimChars s ++ after := by
  refine ⟨s.takeWhile isBlank, ((trimStart s).reverse.takeWhile isBlank).reverse, ?_, ?_⟩
  · intro c hc
    rcases List.mem_append.1 hc with hc | hc
    · exact List.mem_takeWhile_imp hc
    · exact List.mem_takeWhile_imp (List.mem_reverse.1 hc)
  · have hend : trimChars s ++ ((trimStart s).reverse.takeWhile isBlank).reverse = trimStart s := by
      rw [trimChars, trimEnd, ← List.reverse_append, List.takeWhile_append_dropWhile,
        List.reverse_reverse]
    rw [List.append_assoc, hend, trimStart, List.takeWhile_append_dropWhile]

/-- Blanks go, up to a text that has none. -/
theorem dropWhile_blanks (before t after : List Char) (hbefore : ∀ c ∈ before, isBlank c = true)
    (ht : ∀ c ∈ t, isBlank c = false) (hafter : ∀ c ∈ after, isBlank c = true) :
    (before ++ t ++ after).dropWhile isBlank = if t = [] then [] else t ++ after := by
  rw [List.append_assoc, List.dropWhile_append_of_pos hbefore]
  cases t with
  | nil => rw [if_pos rfl, List.nil_append, List.dropWhile_eq_nil_iff]; exact hafter
  | cons c t =>
    rw [if_neg (List.cons_ne_nil c t), List.cons_append, List.dropWhile_cons, ht c (.head _)]
    rfl

theorem trimChars_blanks (before t after : List Char) (hbefore : ∀ c ∈ before, isBlank c = true)
    (ht : ∀ c ∈ t, isBlank c = false) (hafter : ∀ c ∈ after, isBlank c = true) :
    trimChars (before ++ t ++ after) = t := by
  have hback := dropWhile_blanks after.reverse t.reverse []
    (fun c hc => hafter c (List.mem_reverse.1 hc)) (fun c hc => ht c (List.mem_reverse.1 hc))
    fun c hc => (List.not_mem_nil hc).elim
  rw [List.append_nil] at hback
  rw [trimChars, trimStart, dropWhile_blanks before t after hbefore ht hafter, trimEnd]
  by_cases hempty : t = []
  · rw [if_pos hempty, hempty]
    rfl
  · rw [if_neg hempty, List.reverse_append, hback, List.append_nil, if_neg (by simpa using hempty),
      List.reverse_reverse]

/-- **A text without blanks is what trimming leaves** just where blanks alone are
around it. -/
theorem trim_eq_iff {t : List Char} (ht : ∀ c ∈ t, isBlank c = false) (s : String) :
    trim s = String.ofList t ↔
      ∃ before after, (∀ c ∈ before ++ after, isBlank c = true) ∧
        s.toList = before ++ t ++ after := by
  rw [trim, String.ofList_inj]
  constructor
  · intro h
    obtain ⟨before, after, hblank, hs⟩ := trimChars_between s.toList
    exact ⟨before, after, hblank, by rw [← h]; exact hs⟩
  · rintro ⟨before, after, hblank, hs⟩
    rw [hs]
    exact trimChars_blanks before t after (fun c hc => hblank c (List.mem_append_left _ hc)) ht
      fun c hc => hblank c (List.mem_append_right _ hc)

end Colloquy.Text
