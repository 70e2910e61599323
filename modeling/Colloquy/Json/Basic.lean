import Colloquy.Named
import Colloquy.Number.Float
/-!
# JSON values

Whole numbers and other numbers are apart, because a reader of a count takes
only the former. The members of an object stand in the order of their names
and each name stands once, which `ofMembers` sees to.
-/

namespace Colloquy

/-- A JSON value. -/
inductive Json where
  | null
  | bool (b : Bool)
  | int (n : Int)
  | float (x : Float)
  | text (s : String)
  | list (items : List Json)
  | object (members : List (String × Json))

namespace Json

instance : Inhabited Json := ⟨.null⟩

/-- A natural number as a value. -/
def nat (n : Nat) : Json := .int n

/-- A value, or `null` where there is none. -/
def ofOption {α : Type} (f : α → Json) : Option α → Json
  | none => .null
  | some a => f a

/-- The object of members given in any order; of one name the last counts. -/
def ofMembers (members : List (String × Json)) : Json :=
  .object (Named.ofList members)

/-- The member of a name; a value that is no object has none. -/
def get? (name : String) : Json → Option Json
  | .object members => Named.find? name members
  | _ => none

/-- The member of a name, with `null` and a missing member being the same. -/
def field (name : String) (j : Json) : Json :=
  (j.get? name).getD .null

/-- The text of a text. -/
def text? : Json → Option String
  | .text s => some s
  | _ => none

/-- The number of a whole number that is not negative. -/
def nat? : Json → Option Nat
  | .int (.ofNat n) => some n
  | _ => none

/-- The items of a list; anything else has none. -/
def items : Json → List Json
  | .list xs => xs
  | _ => []

/-- The members of an object; anything else has none. -/
def members : Json → List (String × Json)
  | .object ms => ms
  | _ => []

/-- The text of a text; anything else gives the empty text. -/
def textOr (default : String) (j : Json) : String :=
  j.text?.getD default

/-- The number of a count; anything else gives the default. -/
def natOr (default : Nat) (j : Json) : Nat :=
  j.nat?.getD default

/-- Whether a value is `true`. -/
def isTrue : Json → Bool
  | .bool b => b
  | _ => false

/-- Whether a value is `null`. -/
def isNull : Json → Bool
  | .null => true
  | _ => false

/-- The double of a number. -/
def float? : Json → Option Float
  | .float x => some x
  | .int n => some (Number.ofInt n)
  | _ => none

end Json

end Colloquy
