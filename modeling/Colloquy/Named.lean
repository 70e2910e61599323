import Colloquy.Text.Utf8
/-!
# Values under names

A list of names with values, in the order of the names' bytes, each name
once. `insert` keeps that form, and `find?` reads it.
-/

namespace Colloquy.Named

variable {α : Type}

/-- The value of a name. -/
def find? (name : String) : List (String × α) → Option α
  | [] => none
  | (key, value) :: rest => if key = name then some value else find? name rest

/-- One value more, at the place of its name; a value of the same name is
replaced. -/
def insert (name : String) (value : α) : List (String × α) → List (String × α)
  | [] => [(name, value)]
  | (key, old) :: rest =>
    if key = name then (name, value) :: rest
    else if Text.Utf8.precedes name.toList key.toList then (name, value) :: (key, old) :: rest
    else (key, old) :: insert name value rest

/-- The values without the one of a name. -/
def erase (name : String) (entries : List (String × α)) : List (String × α) :=
  entries.filter fun e => e.1 ≠ name

/-- The ordered form of values given in any order; of one name the last
counts. -/
def ofList (entries : List (String × α)) : List (String × α) :=
  entries.foldl (fun acc e => insert e.1 e.2 acc) []

end Colloquy.Named
