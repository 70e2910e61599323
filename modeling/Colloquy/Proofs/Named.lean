import Colloquy.Named
/-!
# Looking for names

A name that is inserted is found with its value, and one that is erased is not
found; every other name is found as before, in lists of any order.
-/

namespace Colloquy.Named

variable {α : Type}

/-- **An inserted name is found**, and no other is touched. -/
theorem find?_insert (name other : String) (value : α) (entries : List (String × α)) :
    find? other (insert name value entries) =
      if name = other then some value else find? other entries := by
  fun_induction insert name value entries with
  | case1 => rfl
  | case2 old rest => by_cases ho : name = other <;> simp only [find?, ho, if_true, if_false]
  | case3 key old rest hkey _ => rfl
  | case4 key old rest hkey _ ih =>
    rw [find?, find?, ih]
    by_cases ho : key = other
    · subst ho
      rw [if_pos rfl, if_pos rfl, if_neg (Ne.symm hkey)]
    · rw [if_neg ho, if_neg ho]

theorem find?_insert_self (name : String) (value : α) (entries : List (String × α)) :
    find? name (insert name value entries) = some value := by
  rw [find?_insert, if_pos rfl]

theorem find?_insert_of_ne {name other : String} (h : name ≠ other) (value : α)
    (entries : List (String × α)) :
    find? other (insert name value entries) = find? other entries := by
  rw [find?_insert, if_neg h]

/-- **An erased name is gone** and no other. -/
theorem find?_erase (name other : String) (entries : List (String × α)) :
    find? other (erase name entries) = if name = other then none else find? other entries := by
  induction entries with
  | nil => simp [erase, find?]
  | cons entry rest ih =>
    obtain ⟨key, value⟩ := entry
    simp only [erase] at ih ⊢
    by_cases hkey : key = name
    · subst hkey
      rw [List.filter_cons_of_neg (by simp), ih, find?]
      by_cases ho : key = other <;> simp [ho]
    · rw [List.filter_cons_of_pos (by simpa using hkey), find?, find?, ih]
      by_cases ho : key = other
      · subst ho
        rw [if_pos rfl, if_pos rfl, if_neg (Ne.symm hkey)]
      · rw [if_neg ho, if_neg ho]

theorem mem_of_find? {name : String} {value : α} {entries : List (String × α)}
    (h : find? name entries = some value) : (name, value) ∈ entries := by
  induction entries with
  | nil => cases h
  | cons entry rest ih =>
    obtain ⟨key, found⟩ := entry
    rw [find?] at h
    by_cases hkey : key = name
    · rw [if_pos hkey, Option.some_inj] at h
      rw [← hkey, ← h]
      exact List.mem_cons_self
    · rw [if_neg hkey] at h
      exact List.mem_cons_of_mem _ (ih h)

end Colloquy.Named
