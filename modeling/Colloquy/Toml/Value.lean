import Colloquy.Json.Basic
import Colloquy.Shape
/-!
# TOML values

A table remembers how it came about, because that decides what may still be
added to it. `Value.conform?` says which values fit a shape: a record may be
written as a table, whose unknown keys do not count, or as the list of its
first fields; a date counts as a table without any. A number for a single stays
as it is written, and is rounded by who reads it.
-/

namespace Colloquy.Toml

/-- How a table came about. -/
inductive Origin where
  /-- It has a header of its own, or is the root. -/
  | header
  /-- It stands on the way to another header. -/
  | implied
  /-- It stands on the way to a dotted key. -/
  | dotted
  /-- It is written as a value. -/
  | written
deriving DecidableEq, Repr

/-- Whether a table has not been defined in its own right. -/
def Origin.isImplicit : Origin → Bool
  | .implied => true
  | .dotted => true
  | _ => false

/-- A TOML value. -/
inductive Value where
  | text (s : String)
  | int (n : Int)
  | float (x : Float)
  | bool (b : Bool)
  /-- A date, a time or both. -/
  | moment
  | list (items : List Value)
  | table (origin : Origin) (entries : List (String × Value))
  /-- The tables under one repeated header, in order. -/
  | tables (elements : List Value)

instance : Inhabited Value := ⟨.moment⟩

/-- Values under keys. -/
abbrev Entries := List (String × Value)

/-- The value of a key. -/
def lookup (key : String) : Entries → Option Value
  | [] => none
  | (k, v) :: rest => if k = key then some v else lookup key rest

/-- Writes a value under a key, in its place or behind the others. -/
def put (key : String) (value : Value) : Entries → Entries
  | [] => [(key, value)]
  | (k, v) :: rest => if k = key then (key, value) :: rest else (k, v) :: put key value rest

namespace Value

mutual

/-- The value as JSON, when it fits a shape. -/
def conform? : Shape → Value → Option Json
  | .optional inner, v => conform? inner v
  | .text accepts, .text s => if accepts s then some (.text s) else none
  | .tag names, .text s => if names.contains s then some (.text s) else none
  | .nat max, .int n => if 0 ≤ n && n ≤ max then some (.int n) else none
  | .bool, .bool b => some (.bool b)
  | .double, .float x => some (.float x)
  | .double, .int n => some (.float (Number.ofInt n))
  | .single, .float x => some (.float x)
  | .single, .int n => some (.int n)
  | .listOf inner, .list items => (items.mapM (conform? inner)).map .list
  | .mapOf inner, .table _ entries =>
    (entries.mapM fun e : String × Value => (conform? inner e.2).map fun x => (e.1, x)).map
      Json.ofMembers
  | .record fields, .table _ entries => (conformFields? fields entries).map .object
  | .record fields, .list items => (conformPositions? fields items).map .object
  | .record fields, .tables elements => (conformPositions? fields elements).map .object
  | .record fields, .moment => (conformFields? fields []).map .object
  | _, _ => none

/-- The fields of a record found in a table. -/
def conformFields? : List (String × Presence × Shape) → Entries → Option (List (String × Json))
  | [], _ => some []
  | (name, presence, shape) :: fields, entries => do
    let xs ← conformFields? fields entries
    match lookup name entries with
    | none => if Shape.Field.omittable (name, presence, shape) then some xs else none
    | some v => (conform? shape v).map fun x => (name, x) :: xs

/-- The fields of a record given by position. Items behind the last field do
not count, and fields behind the last item need a default. -/
def conformPositions? : List (String × Presence × Shape) → List Value →
    Option (List (String × Json))
  | [], _ => some []
  | (_, presence, _) :: fields, [] =>
    if presence = .defaulted then conformPositions? fields [] else none
  | (name, _, shape) :: fields, v :: rest => do
    let x ← conform? shape v
    let xs ← conformPositions? fields rest
    some ((name, x) :: xs)

end

end Value

end Colloquy.Toml
