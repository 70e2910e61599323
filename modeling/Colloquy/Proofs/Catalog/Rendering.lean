import Colloquy.Catalog.Spec
import Colloquy.Proofs.Text.Prefix
/-!
# Filling in a description

The brace that opens a placeholder does not come again in it, so no placeholder
begins within another one or goes on into it (`eq_nil_or_prefix`). So where texts
without placeholders are joined by placeholders, these are all there are
(`occurs_iff`), and each is replaced, once (`substitute_intercalate`).
-/

namespace Colloquy.TaskSpec

/-- A text without a placeholder. -/
def IsFree (s : List Char) : Prop := ¬ placeholder <:+: s

theorem isFree_of_length_lt {s : List Char} (h : s.length < placeholder.length) : IsFree s :=
  fun hin => Nat.not_le.2 h hin.length_le

/-! ## Where placeholders can stand -/

/-- The opening brace does not come again. -/
theorem brace_not_mem_tail : '\x7b' ∉ placeholder.tail := by decide

/-- **Placeholders do not overlap.** Where a text begins with one and has one behind
`front`, the latter is the same one or comes after it. -/
theorem eq_nil_or_prefix {front rest rest' : List Char}
    (h : placeholder ++ rest = front ++ (placeholder ++ rest')) :
    front = [] ∨ placeholder <+: front := by
  rcases List.append_eq_append_iff.1 h with ⟨middle, hfront, -⟩ | ⟨back, hsplit, hback⟩
  · exact .inr ⟨middle, hfront.symm⟩
  cases front with
  | nil => exact .inl rfl
  | cons c front =>
    cases back with
    | nil => exact .inr ⟨[], by simpa using hsplit⟩
    | cons d back =>
      -- the second one begins with a character of the tail of the first
      obtain rfl : '\x7b' = d := (List.cons.inj hback).1
      have htail : placeholder.tail = front ++ '\x7b' :: back := by rw [hsplit]; rfl
      refine absurd ?_ brace_not_mem_tail
      rw [htail]
      exact List.mem_append_right _ (.head _)

theorem IsFree.tail {c : Char} {s : List Char} (h : IsFree (c :: s)) : IsFree s :=
  fun hin => h (List.infix_cons_iff.2 (.inr hin))

/-- In front of a placeholder, none begins in a text that is free. -/
theorem IsFree.not_prefix {c : Char} {s : List Char} (h : IsFree (c :: s)) (rest : List Char) :
    ¬ placeholder <+: c :: (s ++ (placeholder ++ rest)) := by
  rintro ⟨after, hafter⟩
  have hsplit : placeholder ++ after = (c :: s) ++ (placeholder ++ rest) := hafter
  rcases eq_nil_or_prefix hsplit with hnil | hstart
  · cases hnil
  · exact h hstart.isInfix

theorem intercalate_append {sep : List Char} {left right : List (List Char)} (hleft : left ≠ [])
    (hright : right ≠ []) :
    sep.intercalate (left ++ right) = sep.intercalate left ++ sep ++ sep.intercalate right := by
  induction left with
  | nil => exact absurd rfl hleft
  | cons s left ih =>
    cases left with
    | nil =>
      obtain ⟨s', right, rfl⟩ := List.exists_cons_of_ne_nil hright
      rw [List.singleton_append, List.intercalate_cons_cons, List.intercalate_singleton]
    | cons s' left =>
      rw [List.cons_append, List.cons_append, List.intercalate_cons_cons, ← List.cons_append,
        ih (by simp), List.intercalate_cons_cons]
      simp only [List.append_assoc]

/-- **The placeholders in joined texts are those that join them.** -/
theorem occurs_iff {segments : List (List Char)} (hfree : ∀ s ∈ segments, IsFree s)
    (before after : List Char) :
    placeholder.intercalate segments = before ++ (placeholder ++ after) ↔
      ∃ left right, segments = left ++ right ∧ left ≠ [] ∧ right ≠ [] ∧
        before = placeholder.intercalate left ∧ after = placeholder.intercalate right := by
  constructor
  · intro h
    induction segments generalizing before with
    | nil =>
      have hnil := (List.append_eq_nil_iff.1 h.symm).2
      exact absurd (List.append_eq_nil_iff.1 hnil).1 (by decide)
    | cons s segments ih =>
      cases segments with
      | nil =>
        rw [List.intercalate_singleton] at h
        exact absurd ⟨before, after, by rw [h, List.append_assoc]⟩ (hfree s (.head _))
      | cons s' segments =>
        rw [List.intercalate_cons_cons, List.append_assoc] at h
        -- it is the first one, or stands behind it, or would be in the first text
        have first : before = s → after = placeholder.intercalate (s' :: segments) →
            ∃ left right, s :: s' :: segments = left ++ right ∧ left ≠ [] ∧ right ≠ [] ∧
              before = placeholder.intercalate left ∧ after = placeholder.intercalate right :=
          fun hbefore hafter =>
            ⟨[s], s' :: segments, rfl, by simp, by simp, by simp [hbefore], hafter⟩
        rcases List.append_eq_append_iff.1 h with ⟨front, rfl, hrest⟩ | ⟨front, rfl, hrest⟩
        · rcases eq_nil_or_prefix hrest with rfl | ⟨middle, rfl⟩
          · exact first (by simp) (List.append_cancel_left hrest).symm
          · rw [List.append_assoc] at hrest
            obtain ⟨left, right, hsplit, hleft, hright, rfl, hafter⟩ :=
              ih (fun x hx => hfree x (.tail _ hx)) middle (List.append_cancel_left hrest)
            refine ⟨s :: left, right, by rw [hsplit, List.cons_append], by simp, hright, ?_, hafter⟩
            obtain ⟨x, left, rfl⟩ := List.exists_cons_of_ne_nil hleft
            rw [List.intercalate_cons_cons, List.append_assoc]
        · rcases eq_nil_or_prefix hrest with rfl | hstart
          · exact first (by simp) (List.append_cancel_left hrest)
          · exact absurd (hstart.isInfix.trans (List.suffix_append _ _).isInfix)
              (hfree _ (.head _))
  · rintro ⟨left, right, rfl, hleft, hright, rfl, rfl⟩
    rw [intercalate_append hleft hright, List.append_assoc]

/-! ## Replacing them -/

/-- The rest of a placeholder that has been replaced is passed over. -/
theorem substitute_skip (content passed rest : List Char) :
    substitute content passed.length (passed ++ rest) = substitute content 0 rest := by
  induction passed with
  | nil => rfl
  | cons c passed ih => exact ih

theorem substitute_placeholder (content rest : List Char) :
    substitute content 0 (placeholder ++ rest) = content ++ substitute content 0 rest := by
  have hstart : (Text.afterPrefix? placeholder (placeholder ++ rest)).isSome :=
    Text.isSome_afterPrefix?_iff.2 (List.prefix_append _ _)
  exact (if_pos hstart).trans
    (congrArg (content ++ ·) (substitute_skip content placeholder.tail rest))

theorem substitute_cons {content rest : List Char} {c : Char} (h : ¬ placeholder <+: c :: rest) :
    substitute content 0 (c :: rest) = c :: substitute content 0 rest := by
  rw [substitute, if_neg fun hstart => h (Text.isSome_afterPrefix?_iff.1 hstart)]

/-- A free text stays as it is. -/
theorem substitute_free (content : List Char) {s : List Char} (h : IsFree s) :
    substitute content 0 s = s := by
  induction s with
  | nil => rfl
  | cons c s ih => rw [substitute_cons fun hstart => h hstart.isInfix, ih h.tail]

/-- Text without a placeholder stays also in front of one. -/
theorem substitute_free_append (content : List Char) {s : List Char} (h : IsFree s)
    (rest : List Char) :
    substitute content 0 (s ++ (placeholder ++ rest)) =
      s ++ (content ++ substitute content 0 rest) := by
  induction s with
  | nil => exact substitute_placeholder content rest
  | cons c s ih => rw [List.cons_append, substitute_cons (h.not_prefix rest), ih h.tail]; rfl

/-- **Joined texts are joined by the content** in place of the placeholder. -/
theorem substitute_intercalate (content : List Char) {segments : List (List Char)}
    (hfree : ∀ s ∈ segments, IsFree s) :
    substitute content 0 (placeholder.intercalate segments) = content.intercalate segments := by
  induction segments with
  | nil => rfl
  | cons s segments ih =>
    cases segments with
    | nil => simpa using substitute_free content (hfree s (.head _))
    | cons s' segments =>
      rw [List.intercalate_cons_cons, List.intercalate_cons_cons, List.append_assoc,
        substitute_free_append content (hfree s (.head _)),
        ih fun x hx => hfree x (.tail _ hx), List.append_assoc]

/-! ## Descriptions -/

/-- Every text is free texts joined by placeholders. -/
theorem exists_segments (text : List Char) :
    ∃ segments, segments ≠ [] ∧ (∀ s ∈ segments, IsFree s) ∧
      text = placeholder.intercalate segments := by
  induction hlength : text.length using Nat.strongRecOn generalizing text with
  | _ n ih =>
    by_cases hin : placeholder <:+: text
    · obtain ⟨before, after, rfl⟩ := hin
      have hpos : 0 < placeholder.length := by decide
      simp only [List.length_append] at hlength
      obtain ⟨left, hleft, hleftFree, rfl⟩ := ih before.length (by omega) before rfl
      obtain ⟨right, hright, hrightFree, rfl⟩ := ih after.length (by omega) after rfl
      refine ⟨left ++ right, by simp [hleft], fun s hs => ?_,
        (intercalate_append hleft hright).symm⟩
      exact (List.mem_append.1 hs).elim (hleftFree s) (hrightFree s)
    · exact ⟨[text], by simp, by simpa [IsFree] using hin, by simp⟩

/-- Every description is rendered as the same texts joined by the content. -/
theorem exists_render_eq (t : TaskSpec) :
    ∃ segments, segments ≠ [] ∧ t.description.toList = placeholder.intercalate segments ∧
      ∀ content, (t.render content).toList = content.toList.intercalate segments := by
  obtain ⟨segments, hne, hfree, htext⟩ := exists_segments t.description.toList
  refine ⟨segments, hne, htext, fun content => ?_⟩
  rw [render, String.toList_ofList, htext, substitute_intercalate _ hfree]

/-- **A description is filled in by one pass.** Where it is texts without placeholders,
joined by placeholders, it is rendered as these texts joined by the content, whatever that
holds; and there is no placeholder in it but those that join the texts. -/
theorem render_joined (t : TaskSpec) {segments : List String}
    (hfree : ∀ s ∈ segments, IsFree s.toList)
    (hdescription : t.description = (String.ofList placeholder).intercalate segments) :
    (∀ content, t.render content = content.intercalate segments) ∧
      ∀ before after, t.description.toList = before ++ placeholder ++ after ↔
        ∃ left right, segments = left ++ right ∧ left ≠ [] ∧ right ≠ [] ∧
          before = ((String.ofList placeholder).intercalate left).toList ∧
          after = ((String.ofList placeholder).intercalate right).toList := by
  have hchars : t.description.toList = placeholder.intercalate (segments.map String.toList) := by
    rw [hdescription, String.toList_intercalate, String.toList_ofList]
  have hfree' : ∀ s ∈ segments.map String.toList, IsFree s := by simpa using hfree
  refine ⟨fun content => ?_, fun before after => ?_⟩
  · rw [render, hchars, substitute_intercalate _ hfree', ← String.toList_intercalate,
      String.ofList_toList]
  · rw [hchars, List.append_assoc, occurs_iff hfree']
    simp only [String.toList_intercalate, String.toList_ofList]
    constructor
    · rintro ⟨left, right, hsplit, hleft, hright, hbefore, hafter⟩
      obtain ⟨left, right, rfl, rfl, rfl⟩ := List.map_eq_append_iff.1 hsplit
      exact ⟨left, right, rfl, by simpa using hleft, by simpa using hright, hbefore, hafter⟩
    · rintro ⟨left, right, rfl, hleft, hright, hbefore, hafter⟩
      exact ⟨_, _, List.map_append, by simpa using hleft, by simpa using hright, hbefore, hafter⟩

/-- Segments that nearly make a placeholder with what is put between them, and content
that is one itself. -/
theorem render_joined_nested :
    let segments := ["\x7b", "content\x7d", ""]
    let t : TaskSpec := ⟨"", (String.ofList placeholder).intercalate segments, ""⟩
    (∀ s ∈ segments, IsFree s.toList) ∧
      t.description = "\x7b\x7bcontent\x7dcontent\x7d\x7bcontent\x7d" ∧
      t.render "\x7bcontent\x7d" = "\x7b\x7bcontent\x7dcontent\x7d\x7bcontent\x7d" := by
  have hfree : ∀ s ∈ ["\x7b", "content\x7d", ""], IsFree s.toList := by
    intro s hs
    simp only [List.mem_cons, List.not_mem_nil, or_false] at hs
    rcases hs with rfl | rfl | rfl <;> exact isFree_of_length_lt (by decide)
  have hrender := (render_joined ⟨"", _, ""⟩ hfree rfl).1 "\x7bcontent\x7d"
  exact ⟨hfree, by decide, hrender.trans (by decide)⟩

end Colloquy.TaskSpec
