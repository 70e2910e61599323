import Colloquy.Toml.Value
/-!
# Records of a document

A record whose fields all have defaults fits just when every value it is given
fits (`isSome_conformFields?_iff`), and then each field is read from the value
under its own name and from nothing else (`find?_of_conformFields?`). The forms
of a record come down to one: `entriesFor?` says what stands under which name in
a table, a date or a list, and `conform?_record` that this is all that counts.
-/

namespace Colloquy

namespace Shape

variable {α : Type}

/-- The fields of a record that may all be left out, by their names. -/
def allowing (shape : α → Shape) (items : List (String × α)) : List Field :=
  items.map fun e => allows e.1 (shape e.2)

@[simp] theorem map_fst_allowing (shape : α → Shape) (items : List (String × α)) :
    (allowing shape items).map (·.1) = items.map (·.1) := by
  rw [allowing, List.map_map]
  rfl

theorem defaulted_allowing (shape : α → Shape) (items : List (String × α)) :
    ∀ f ∈ allowing shape items, f.2.1 = .defaulted := by
  intro f hf
  obtain ⟨e, -, rfl⟩ := List.mem_map.1 hf
  rfl

theorem forall_allowing {shape : α → Shape} {items : List (String × α)} {P : Field → Prop} :
    (∀ f ∈ allowing shape items, P f) ↔ ∀ e ∈ items, P (allows e.1 (shape e.2)) :=
  List.forall_mem_map

theorem fieldShape?_allowing (shape : α → Shape) (items : List (String × α)) (name : String) :
    fieldShape? name (allowing shape items) = (Named.find? name items).map shape := by
  induction items with
  | nil => rfl
  | cons e items ih =>
    rw [allowing, List.map_cons, ← allowing, fieldShape?, Named.find?, allows]
    by_cases hname : e.1 = name
    · rw [if_pos hname, if_pos hname, Option.map_some]
    · rw [if_neg hname, if_neg hname, ih]

end Shape

namespace Toml.Value

variable {fields : List Shape.Field} {entries : Entries} {members : List (String × Json)}

/-- What a value holds under the names of a record: a table its entries, a date
nothing, and a list its items under the names in their order. -/
def entriesFor? (names : List String) : Value → Option Entries
  | .table _ entries => some entries
  | .moment => some []
  | .list items => some (names.zip items)
  | .tables elements => some (names.zip elements)
  | _ => none

/-- **Each field is read from its own name.** -/
theorem find?_of_conformFields? (h : conformFields? fields entries = some members)
    (name : String) :
    Named.find? name members =
      (Shape.fieldShape? name fields).bind fun shape =>
        (lookup name entries).bind (conform? shape) := by
  induction fields generalizing members with
  | nil =>
    rw [conformFields?, Option.some_inj] at h
    rw [← h]
    rfl
  | cons f fields ih =>
    obtain ⟨key, presence, shape⟩ := f
    rw [conformFields?] at h
    obtain ⟨rest, hrest, h⟩ := Option.bind_eq_some_iff.1 h
    rw [Shape.fieldShape?]
    cases hkey : lookup key entries with
    | none =>
      rw [hkey] at h
      obtain ⟨-, rfl⟩ : _ ∧ rest = members := by simpa using h
      rw [ih hrest]
      by_cases hname : key = name
      · -- whatever its shape is, nothing is read for this name
        rw [← hname, hkey]
        cases Shape.fieldShape? key fields <;> simp
      · rw [if_neg hname]
    | some v =>
      rw [hkey] at h
      obtain ⟨x, hx, rfl⟩ := Option.map_eq_some_iff.1 h
      rw [Named.find?]
      by_cases hname : key = name
      · rw [if_pos hname, if_pos hname, ← hname, Option.bind_some, hkey, Option.bind_some, hx]
      · rw [if_neg hname, if_neg hname, ih hrest]

/-- **A record fits when all that it is given fits.** -/
theorem isSome_conformFields?_iff (hdefault : ∀ f ∈ fields, f.2.1 = .defaulted) :
    (conformFields? fields entries).isSome ↔
      ∀ f ∈ fields, ∀ v ∈ lookup f.1 entries, (conform? f.2.2 v).isSome := by
  induction fields with
  | nil => simp [conformFields?]
  | cons f fields ih =>
    obtain ⟨key, presence, shape⟩ := f
    obtain ⟨hpresence, hothers⟩ := List.forall_mem_cons.1 hdefault
    obtain rfl : presence = .defaulted := hpresence
    rw [List.forall_mem_cons, ← ih hothers, conformFields?]
    cases conformFields? fields entries <;> cases lookup key entries <;>
      simp [Shape.Field.omittable]

/-- An entry under another name is not looked at. -/
theorem conformFields?_cons_of_notMem {key : String} (hkey : key ∉ fields.map (·.1)) (v : Value) :
    conformFields? fields ((key, v) :: entries) = conformFields? fields entries := by
  induction fields with
  | nil => rfl
  | cons f fields ih =>
    obtain ⟨name, presence, shape⟩ := f
    obtain ⟨hname, hkey⟩ : key ≠ name ∧ _ := List.ne_and_not_mem_of_not_mem_cons hkey
    rw [conformFields?, conformFields?, ih hkey, lookup, if_neg hname]

/-- **A list is a table of its items**, under the names in their order. -/
theorem conformPositions?_eq (hdefault : ∀ f ∈ fields, f.2.1 = .defaulted)
    (hnames : (fields.map (·.1)).Nodup) (items : List Value) :
    conformPositions? fields items = conformFields? fields ((fields.map (·.1)).zip items) := by
  induction fields generalizing items with
  | nil => rw [conformPositions?, conformFields?]
  | cons f fields ih =>
    obtain ⟨name, presence, shape⟩ := f
    obtain ⟨hpresence, hothers⟩ := List.forall_mem_cons.1 hdefault
    obtain rfl : presence = .defaulted := hpresence
    obtain ⟨hname, hnames⟩ := List.nodup_cons.1 hnames
    cases items with
    | nil =>
      rw [conformPositions?, if_pos rfl, ih hothers hnames, List.zip_nil_right,
        List.zip_nil_right, conformFields?]
      simp [lookup, Shape.Field.omittable]
    | cons v items =>
      rw [conformPositions?, List.map_cons, List.zip_cons_cons, conformFields?, lookup,
        if_pos rfl, conformFields?_cons_of_notMem hname, ih hothers hnames]
      cases hx : conform? shape v <;> simp [hx]

/-- **What a record is read from.** -/
theorem conform?_record (hdefault : ∀ f ∈ fields, f.2.1 = .defaulted)
    (hnames : (fields.map (·.1)).Nodup) (v : Value) :
    conform? (.record fields) v =
      ((v.entriesFor? (fields.map (·.1))).bind (conformFields? fields)).map .object := by
  cases v <;> simp [conform?, entriesFor?, conformPositions?_eq hdefault hnames]

end Toml.Value

end Colloquy
