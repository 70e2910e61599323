/-!
# Tables

A finite map as a list of keys with values. The operations keep each key
once; an entry that is written again stays in its place.
-/

namespace Colloquy

/-- A finite map. -/
structure Table (κ α : Type) where
  entries : List (κ × α)
deriving Repr

namespace Table

variable {κ α : Type} [DecidableEq κ]

/-- No entries. -/
def empty : Table κ α := ⟨[]⟩

/-- The value of a key in a list of entries. -/
def findIn (key : κ) : List (κ × α) → Option α
  | [] => none
  | (k, v) :: rest => if k = key then some v else findIn key rest

/-- A list of entries with one written. -/
def putIn (key : κ) (value : α) : List (κ × α) → List (κ × α)
  | [] => [(key, value)]
  | (k, v) :: rest => if k = key then (key, value) :: rest else (k, v) :: putIn key value rest

/-- The value of a key. -/
def get? (t : Table κ α) (key : κ) : Option α :=
  findIn key t.entries

/-- Whether a key has a value. -/
def contains (t : Table κ α) (key : κ) : Bool :=
  (t.get? key).isSome

/-- The table with a value written under a key. -/
def put (t : Table κ α) (key : κ) (value : α) : Table κ α :=
  ⟨putIn key value t.entries⟩

/-- The table without a key. -/
def erase (t : Table κ α) (key : κ) : Table κ α :=
  ⟨t.entries.filter fun e => e.1 ≠ key⟩

/-- The entries whose value passes a test. -/
def keep (t : Table κ α) (test : α → Bool) : Table κ α :=
  ⟨t.entries.filter fun e => test e.2⟩

/-- The number of entries. -/
def size (t : Table κ α) : Nat :=
  t.entries.length

end Table

end Colloquy
