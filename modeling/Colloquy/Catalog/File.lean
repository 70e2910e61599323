import Colloquy.Catalog.Basic
import Colloquy.Folder
import Colloquy.Settings.Basic
import Colloquy.Settings.Place
import Colloquy.Yaml.Document
/-!
# Catalog files

The agents are in one YAML file and the tasks in another, each a mapping from
names to specifications. A file of blanks only has none. `Catalog.load` reads
both files before it looks into either.
-/

namespace Colloquy.Catalog

/-- The specifications in a text, by name. -/
def specs? {α : Type} (shape : Shape) (ofJson : Json → α) (text : String) :
    Option (List (String × α)) :=
  if Text.isBlankText text then some []
  else do
    let document ← Yaml.Document.ofText? text
    let j ← document.conform? (.mapOf shape)
    some (j.members.map fun (name, v) => (name, ofJson v))

/-- What is said of a text that is no mapping of specifications. -/
def unfitText : String := "not a mapping of specifications"

/-- The catalog of two texts, with the paths that they come from. -/
def ofTexts (agents tasks : String × String) : Except CatalogError Catalog :=
  match specs? AgentSpec.shape AgentSpec.ofJson agents.2,
      specs? TaskSpec.shape TaskSpec.ofJson tasks.2 with
  | some a, some t => .ok (ofSpecs a t)
  | none, _ => .error (.unparsable agents.1 unfitText)
  | _, none => .error (.unparsable tasks.1 unfitText)

/-- A file as text. -/
def readText (read : String → Except FileError (List UInt8)) (path : String) :
    Except CatalogError String :=
  match read path with
  | .error e => .error (.unreadable path e.message)
  | .ok bytes =>
    match Text.Utf8.decode? bytes with
    | some text => .ok text
    | none => .error (.unreadable path FileError.notText.message)

/-- The catalog whose files a setting names, relative to a directory. -/
def load (read : String → Except FileError (List UInt8)) (base : String)
    (s : CatalogSettings) : Except CatalogError Catalog := do
  let agentsPath := Place.join base s.agentsPath
  let tasksPath := Place.join base s.tasksPath
  let agents ← readText read agentsPath
  let tasks ← readText read tasksPath
  ofTexts (agentsPath, agents) (tasksPath, tasks)

end Colloquy.Catalog
