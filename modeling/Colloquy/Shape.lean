/-!
# Shapes of documents

What a reader expects of a document, apart from the format it is written in:
the JSON, TOML and YAML readers each say which of their values fit a shape,
and all of them answer the value as JSON with the fields of a record under
their names.
-/

namespace Colloquy

/-- Whether a field of a record may be left out. -/
inductive Presence where
  /-- A record without the field does not fit, unless the field is optional. -/
  | required
  /-- A record without the field fits and has none. -/
  | defaulted
deriving DecidableEq, Repr

/-- What a reader expects. -/
inductive Shape where
  /-- Any value at all. -/
  | any
  /-- A text that passes a test. -/
  | text (accepts : String → Bool)
  /-- A whole number from zero to a bound. -/
  | nat (max : Nat)
  /-- A truth value. -/
  | bool
  /-- A number as a double. -/
  | double
  /-- A number rounded to a single. -/
  | single
  /-- One of some names. -/
  | tag (names : List String)
  /-- A value or nothing. -/
  | optional (inner : Shape)
  /-- A list of values of one shape. -/
  | listOf (inner : Shape)
  /-- Values of one shape under any names. -/
  | mapOf (inner : Shape)
  /-- Values under given names, in the order of their declaration. -/
  | record (fields : List (String × Presence × Shape))

namespace Shape

/-- A field of a record. -/
abbrev Field := String × Presence × Shape

instance : Inhabited Shape := ⟨.any⟩

/-- Any text. -/
def anyText : Shape := .text fun _ => true

/-- A number of 64 bits without a sign. -/
def word64 : Shape := .nat (Nat.pow 2 64 - 1)

/-- A number of 32 bits without a sign. -/
def word32 : Shape := .nat (Nat.pow 2 32 - 1)

/-- Whether the shape takes nothing as a value. -/
def isOptional : Shape → Bool
  | .optional _ => true
  | _ => false

/-- Whether a record may be written without the field's name. -/
def Field.omittable (f : Field) : Bool :=
  f.2.1 = .defaulted || f.2.2.isOptional

/-- The shape of the field of a name. -/
def fieldShape? (name : String) : List Field → Option Shape
  | [] => none
  | f :: rest => if f.1 = name then some f.2.2 else fieldShape? name rest

/-- A required field. -/
def needs (name : String) (shape : Shape) : Field := (name, .required, shape)

/-- A field with a default. -/
def allows (name : String) (shape : Shape) : Field := (name, .defaulted, shape)

end Shape

end Colloquy
