import Colloquy.Proofs.Table
import Mathlib.Data.Finset.Card
import Mathlib.Data.Finset.Dedup
import Mathlib.Data.List.Nodup
/-!
# The keys of a table

A table that is built by its operations holds each key once (`Keyed`). So a
test of values decides about a key as it does about its value (`get?_keep`),
and a table has as many keys as entries (`card_keys`).
-/

namespace Colloquy.Table

variable {κ α : Type}

/-- Each key stands once. -/
def Keyed (t : Table κ α) : Prop := (t.entries.map Prod.fst).Nodup

theorem keyed_empty : (empty : Table κ α).Keyed := List.nodup_nil

theorem Keyed.keep {t : Table κ α} (ht : t.Keyed) (test : α → Bool) : (t.keep test).Keyed :=
  ht.sublist (List.filter_sublist.map Prod.fst)

variable [DecidableEq κ]

theorem Keyed.erase {t : Table κ α} (ht : t.Keyed) (key : κ) : (t.erase key).Keyed :=
  ht.sublist (List.filter_sublist.map Prod.fst)

/-- A written key stands once: in its place, or behind the others. -/
theorem Keyed.put {t : Table κ α} (ht : t.Keyed) (key : κ) (value : α) :
    (t.put key value).Keyed := by
  obtain ⟨entries⟩ := t
  simp only [Keyed, Table.put] at ht ⊢
  induction entries with
  | nil => simp [putIn]
  | cons entry rest ih =>
    obtain ⟨k, v⟩ := entry
    rw [List.map_cons, List.nodup_cons] at ht
    obtain ⟨hfresh, hrest⟩ := ht
    by_cases hk : k = key
    · subst hk
      rw [putIn, if_pos rfl, List.map_cons, List.nodup_cons]
      exact ⟨hfresh, hrest⟩
    · rw [putIn, if_neg hk, List.map_cons, List.nodup_cons]
      refine ⟨fun hmem => ?_, ih hrest⟩
      obtain ⟨e, he, hek⟩ := List.mem_map.1 hmem
      rcases mem_putIn he with rfl | he
      · exact hk hek.symm
      · exact hfresh (List.mem_map.2 ⟨e, he, hek⟩)

/-! ## Entries that are kept -/

theorem findIn_eq_none {key : κ} {entries : List (κ × α)} (h : key ∉ entries.map Prod.fst) :
    findIn key entries = none := by
  induction entries with
  | nil => rfl
  | cons entry rest ih =>
    obtain ⟨k, v⟩ := entry
    rw [List.map_cons, List.mem_cons, not_or] at h
    rw [findIn, if_neg (Ne.symm h.1)]
    exact ih h.2

/-- An entry is the one that its key finds. -/
theorem get?_of_mem {t : Table κ α} (ht : t.Keyed) {e : κ × α} (he : e ∈ t.entries) :
    t.get? e.1 = some e.2 := by
  obtain ⟨entries⟩ := t
  simp only [Keyed, get?] at ht he ⊢
  induction entries with
  | nil => cases he
  | cons entry rest ih =>
    obtain ⟨k, v⟩ := entry
    rw [List.map_cons, List.nodup_cons] at ht
    obtain ⟨hfresh, hrest⟩ := ht
    rcases List.mem_cons.1 he with rfl | he
    · rw [findIn, if_pos rfl]
    · rw [findIn, if_neg fun hk => hfresh (List.mem_map.2 ⟨e, he, hk.symm⟩)]
      exact ih hrest he

/-- **A test keeps the keys whose values pass it.** An entry that fails does
not uncover another one of its key, as there is none. -/
theorem get?_keep {t : Table κ α} (ht : t.Keyed) (test : α → Bool) (key : κ) :
    (t.keep test).get? key = (t.get? key).filter test := by
  obtain ⟨entries⟩ := t
  simp only [Keyed, keep, get?] at ht ⊢
  induction entries with
  | nil => rfl
  | cons entry rest ih =>
    obtain ⟨k, v⟩ := entry
    rw [List.map_cons, List.nodup_cons] at ht
    obtain ⟨hfresh, hrest⟩ := ht
    by_cases hk : k = key
    · subst hk
      have hnone : findIn k rest = none := findIn_eq_none hfresh
      rw [findIn, if_pos rfl, Option.filter_some]
      by_cases hv : test v = true
      · rw [List.filter_cons, if_pos hv, findIn, if_pos rfl, if_pos hv]
      · rw [List.filter_cons, if_neg hv, if_neg hv, ih hrest, hnone, Option.filter_none]
    · rw [findIn, if_neg hk, ← ih hrest]
      by_cases hv : test v = true
      · rw [List.filter_cons, if_pos hv, findIn, if_neg hk]
      · rw [List.filter_cons, if_neg hv]

/-! ## Sizes -/

/-- **A write adds an entry** if its key had none. -/
theorem size_put (t : Table κ α) (key : κ) (value : α) :
    (t.put key value).size = if t.contains key then t.size else t.size + 1 := by
  obtain ⟨entries⟩ := t
  simp only [size, put, contains, get?]
  induction entries with
  | nil => rfl
  | cons entry rest ih =>
    obtain ⟨k, v⟩ := entry
    by_cases hk : k = key
    · simp [putIn, findIn, hk]
    · simp only [putIn, findIn, if_neg hk, List.length_cons, ih]
      exact apply_ite (· + 1) _ _ _

theorem size_erase_le (t : Table κ α) (key : κ) : (t.erase key).size ≤ t.size :=
  List.length_filter_le _ _

omit [DecidableEq κ] in
theorem size_keep_le (t : Table κ α) (test : α → Bool) : (t.keep test).size ≤ t.size :=
  List.length_filter_le _ _

/-- A key that is there leaves a smaller table. -/
theorem size_erase_lt {t : Table κ α} {e : κ × α} (he : e ∈ t.entries) :
    (t.erase e.1).size < t.size := by
  refine List.length_filter_lt_length_iff_exists.2 ⟨e, he, ?_⟩
  simp

/-! ## The set of keys -/

/-- The keys of a table. -/
def keys (t : Table κ α) : Finset κ := (t.entries.map Prod.fst).toFinset

theorem mem_keys {t : Table κ α} {key : κ} : key ∈ t.keys ↔ ∃ value, t.get? key = some value := by
  rw [keys, List.mem_toFinset, ← Option.isSome_iff_exists, ← Option.ne_none_iff_isSome]
  refine ⟨fun hmem hnone => ?_,
    fun hne => Decidable.by_contra fun hmem => hne (findIn_eq_none hmem)⟩
  -- the first entry of the key would be found
  obtain ⟨entries⟩ := t
  simp only [get?] at hmem hnone
  induction entries with
  | nil => cases hmem
  | cons entry rest ih =>
    obtain ⟨k, v⟩ := entry
    rw [findIn] at hnone
    split at hnone
    · cases hnone
    · rename_i hk
      rw [List.map_cons, List.mem_cons] at hmem
      exact ih (hmem.resolve_left (Ne.symm hk)) hnone

/-- **A table has as many keys as entries.** -/
theorem card_keys {t : Table κ α} (ht : t.Keyed) : t.keys.card = t.size := by
  rw [keys, List.toFinset_card_of_nodup ht, List.length_map, size]

end Colloquy.Table
