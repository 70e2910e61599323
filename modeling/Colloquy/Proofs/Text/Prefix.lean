import Colloquy.Text.Blank
/-!
# What a text begins with, and where it is cut

`afterPrefix?` is core's prefix relation, with what follows the prefix. What is
written without a separator lies on one side of it: nothing that begins or
occurs in a text reaches over a character that it does not hold itself.
-/

namespace Colloquy.Text

theorem afterPrefix?_append (start s : List Char) : afterPrefix? start (start ++ s) = some s := by
  induction start with
  | nil => cases s <;> rfl
  | cons c start ih => rw [List.cons_append, afterPrefix?, if_pos rfl, ih]

/-- What follows a prefix is the rest of the text. -/
theorem afterPrefix?_eq_some_iff {start s rest : List Char} :
    afterPrefix? start s = some rest ↔ s = start ++ rest := by
  refine ⟨fun h => ?_, fun h => h ▸ afterPrefix?_append start rest⟩
  fun_induction afterPrefix? start s with
  | case1 s => exact Option.some.inj h
  | case2 => cases h
  | case3 p start s ih => rw [ih h, List.cons_append]
  | case4 => cases h

theorem isSome_afterPrefix?_iff {start s : List Char} :
    (afterPrefix? start s).isSome ↔ start <+: s := by
  rw [Option.isSome_iff_exists]
  exact exists_congr fun rest => afterPrefix?_eq_some_iff.trans eq_comm

/-- A text is cut at a character unless it is without it. -/
theorem cutAt?_singleton_eq_none_iff {x : Char} {s : List Char} :
    cutAt? [x] s = none ↔ x ∉ s := by
  induction s with
  | nil => simp [cutAt?]
  | cons c s ih =>
    by_cases hc : x = c
    · simp [cutAt?, afterPrefix?, hc]
    · simp [cutAt?, afterPrefix?, hc, ih]

/-! ## Around a separator -/

variable {sep : Char} {part before after : List Char}

theorem prefix_of_prefix_append_cons (h : part <+: before ++ sep :: after) (hsep : sep ∉ part) :
    part <+: before := by
  obtain hpart | ⟨rest, rfl⟩ :=
    List.prefix_or_prefix_of_prefix h (List.prefix_append before (sep :: after))
  · exact hpart
  · obtain _ | ⟨c, rest⟩ := rest
    · exact ⟨[], (List.append_nil _).trans (List.append_nil before)⟩
    · obtain ⟨rfl, -⟩ := List.cons_prefix_cons.1 ((List.prefix_append_right_inj before).1 h)
      exact absurd (List.mem_append_right before List.mem_cons_self) hsep

theorem infix_of_infix_append_cons (h : part <:+: before ++ sep :: after) (hsep : sep ∉ part) :
    part <:+: before ∨ part <:+: after := by
  induction before with
  | nil =>
    obtain hstart | hlater := List.infix_cons_iff.1 h
    · exact .inl (@prefix_of_prefix_append_cons sep part [] after hstart hsep).isInfix
    · exact .inr hlater
  | cons c before ih =>
    obtain hstart | hlater := List.infix_cons_iff.1 h
    · exact .inl (@prefix_of_prefix_append_cons sep part (c :: before) after hstart hsep).isInfix
    · exact (ih hlater).imp_left List.infix_cons

/-- A text that is cut at a character is never without a piece. -/
theorem splitOnChar_ne_nil (sep : Char) (s : List Char) : splitOnChar sep s ≠ [] := by
  fun_cases splitOnChar sep s <;> simp_all

/-- The pieces are those before a separator and those behind it. -/
theorem splitOnChar_append (s t : List Char) :
    splitOnChar sep (s ++ sep :: t) = splitOnChar sep s ++ splitOnChar sep t := by
  induction s with
  | nil => simp [splitOnChar]
  | cons c s ih =>
    obtain ⟨piece, pieces, hs⟩ := List.exists_cons_of_ne_nil (splitOnChar_ne_nil sep s)
    rw [List.cons_append, splitOnChar, splitOnChar, ih, hs, List.cons_append]
    split <;> rfl

end Colloquy.Text
