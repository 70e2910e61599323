import Colloquy.Catalog.Spec
/-!
# The catalog

The agents and tasks that commands may name, each under its own name.
-/

namespace Colloquy

/-- The known agents and tasks, in the order of their names. -/
structure Catalog where
  agents : List (String × AgentSpec)
  tasks : List (String × TaskSpec)

namespace Catalog

/-- A catalog without agents and tasks. -/
def empty : Catalog := ⟨[], []⟩

/-- The catalog of named specifications; each takes the name it stands
under. -/
def ofSpecs (agents : List (String × AgentSpec)) (tasks : List (String × TaskSpec)) : Catalog where
  agents := (Named.ofList agents).map fun (name, a) => (name, { a with name := name })
  tasks := (Named.ofList tasks).map fun (name, t) => (name, { t with name := name })

/-- The agent of a name. -/
def agent? (c : Catalog) (name : String) : Option AgentSpec :=
  Named.find? name c.agents

/-- The task of a name. -/
def task? (c : Catalog) (name : String) : Option TaskSpec :=
  Named.find? name c.tasks

end Catalog

/-- Why a catalog could not be loaded. -/
inductive CatalogError where
  | unreadable (path reason : String)
  | unparsable (path reason : String)
deriving DecidableEq, Repr

/-- The wording of a catalog error. -/
def CatalogError.message : CatalogError → String
  | .unreadable path reason => "failed to read " ++ path ++ ": " ++ reason
  | .unparsable path reason => "failed to parse " ++ path ++ ": " ++ reason

end Colloquy
