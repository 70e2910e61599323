import Colloquy.Table
/-!
# Looking into tables

What each operation on a table does to its lookups. A written key is found
and an erased one is not, whatever the list of entries looked like before;
every other key is found where it was. An operation does not look at values,
so a map over all values goes through it.
-/

namespace Colloquy.Table

variable {κ α : Type} [DecidableEq κ]

@[simp] theorem get?_empty (key : κ) : (empty : Table κ α).get? key = none := rfl

theorem findIn_putIn (key other : κ) (value : α) (entries : List (κ × α)) :
    findIn other (putIn key value entries) =
      if key = other then some value else findIn other entries := by
  induction entries with
  | nil => simp [putIn, findIn]
  | cons entry rest ih =>
    obtain ⟨k, v⟩ := entry
    by_cases hk : k = key
    · subst hk
      by_cases ho : k = other <;> simp [putIn, findIn, ho]
    · simp only [putIn, if_neg hk, findIn, ih]
      by_cases ho : k = other
      · subst ho
        simp [Ne.symm hk]
      · simp [ho]

theorem findIn_filter_ne (key other : κ) (entries : List (κ × α)) :
    findIn other (entries.filter fun e => e.1 ≠ key) =
      if key = other then none else findIn other entries := by
  induction entries with
  | nil => simp [findIn]
  | cons entry rest ih =>
    obtain ⟨k, v⟩ := entry
    by_cases hk : k = key
    · subst hk
      rw [List.filter_cons_of_neg (by simp), ih]
      by_cases ho : k = other <;> simp [findIn, ho]
    · rw [List.filter_cons_of_pos (by simpa using hk)]
      simp only [findIn, ih]
      by_cases ho : k = other
      · subst ho
        simp [Ne.symm hk]
      · simp [ho]

/-- **A write is found under its key** and nowhere else. -/
theorem get?_put (t : Table κ α) (key other : κ) (value : α) :
    (t.put key value).get? other = if key = other then some value else t.get? other :=
  findIn_putIn key other value t.entries

/-- **An erased key is gone** and no other. -/
theorem get?_erase (t : Table κ α) (key other : κ) :
    (t.erase key).get? other = if key = other then none else t.get? other :=
  findIn_filter_ne key other t.entries

@[simp] theorem get?_put_self (t : Table κ α) (key : κ) (value : α) :
    (t.put key value).get? key = some value := by
  simp [get?_put]

/-! ## Entries -/

theorem mem_of_findIn {key : κ} {value : α} {entries : List (κ × α)}
    (h : findIn key entries = some value) : (key, value) ∈ entries := by
  induction entries with
  | nil => cases h
  | cons entry rest ih =>
    obtain ⟨k, v⟩ := entry
    simp only [findIn] at h
    split at h
    · rename_i hk
      cases h
      subst hk
      exact .head _
    · exact .tail _ (ih h)

theorem mem_of_get? {t : Table κ α} {key : κ} {value : α} (h : t.get? key = some value) :
    (key, value) ∈ t.entries :=
  mem_of_findIn h

theorem mem_putIn {key : κ} {value : α} {entries : List (κ × α)} {e : κ × α}
    (h : e ∈ putIn key value entries) : e = (key, value) ∨ e ∈ entries := by
  induction entries with
  | nil => exact .inl (List.mem_singleton.1 h)
  | cons entry rest ih =>
    obtain ⟨k, v⟩ := entry
    simp only [putIn] at h
    split at h
    · rcases List.mem_cons.1 h with h | h
      · exact .inl h
      · exact .inr (.tail _ h)
    · rcases List.mem_cons.1 h with h | h
      · exact .inr (h ▸ .head _)
      · exact (ih h).imp_right (.tail _)

/-- A write adds its own entry at most. -/
theorem mem_put {t : Table κ α} {key : κ} {value : α} {e : κ × α}
    (h : e ∈ (t.put key value).entries) : e = (key, value) ∨ e ∈ t.entries :=
  mem_putIn h

/-! ## Values -/

variable {β : Type} (f : α → β)

/-- The table with a function applied to every value. -/
def mapValues (t : Table κ α) : Table κ β := ⟨t.entries.map fun e => (e.1, f e.2)⟩

theorem get?_mapValues (t : Table κ α) (key : κ) :
    (t.mapValues f).get? key = (t.get? key).map f := by
  obtain ⟨entries⟩ := t
  simp only [get?, mapValues]
  induction entries with
  | nil => rfl
  | cons entry rest ih =>
    simp only [List.map_cons, findIn]
    split
    · rfl
    · exact ih

theorem contains_mapValues (t : Table κ α) (key : κ) :
    (t.mapValues f).contains key = t.contains key := by
  rw [contains, get?_mapValues, Option.isSome_map, contains]

omit [DecidableEq κ] in
theorem size_mapValues (t : Table κ α) : (t.mapValues f).size = t.size := by
  simp only [size, mapValues, List.length_map]

theorem put_mapValues (t : Table κ α) (key : κ) (value : α) :
    (t.put key value).mapValues f = (t.mapValues f).put key (f value) := by
  obtain ⟨entries⟩ := t
  simp only [put, mapValues, mk.injEq]
  induction entries with
  | nil => rfl
  | cons entry rest ih =>
    simp only [putIn, List.map_cons]
    split
    · rfl
    · rw [List.map_cons, ih]

theorem erase_mapValues (t : Table κ α) (key : κ) :
    (t.erase key).mapValues f = (t.mapValues f).erase key := by
  simp only [erase, mapValues, List.filter_map]
  rfl

end Colloquy.Table
