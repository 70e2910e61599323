import Colloquy.Catalog.File
import Colloquy.Settings.File
import Colloquy.Settings.Place
import Colloquy.Site
import Colloquy.Table
/-!
# Opening an office

A host is what a run finds around it: files, a working directory, an
environment, the databases kept so far and a model server. `Host.openOffice`
makes the data directory, reads the settings in it, opens the database and
loads the catalog; what could not be loaded is an empty catalog.
`Host.leave` puts back what the office has changed.
-/

namespace Colloquy

/-- What a run finds around it. -/
structure Host (S : Type) where
  /-- All files, by whole paths. -/
  folder : Folder
  /-- The working directory. -/
  directory : String
  environment : List (String × String) := []
  /-- The home directory of the account. -/
  home : Option String := none
  /-- The databases, by their places. -/
  databases : Table (List String) Database := .empty
  server : S
  draws : Nat := 0
  /-- Why the service cannot listen at a host and a port, if so. -/
  listenFault : String → Nat → Option String := fun _ _ => none

/-- All that one run works with. -/
structure Office (S : Type) where
  /-- Where the database lies. -/
  place : List String
  settings : Settings
  equipment : Equipment S
  hall : Hall (Site S)

namespace Host

variable {S : Type}

/-- The value of a variable. -/
def value? (h : Host S) (name : String) : Option String :=
  (h.environment.find? fun v => v.1 = name).map (·.2)

/-- A path from the working directory. -/
def absolute (h : Host S) (path : String) : String :=
  Place.join h.directory path

/-- The data directory. -/
def dataDir (h : Host S) : String :=
  Place.dataDir (h.value? Place.dataDirVariable) (h.value? "HOME") h.home

/-- A failure with its cause below it. -/
def chained (failure cause : String) : String :=
  failure ++ ": " ++ cause ++ "\n\nCaused by:\n    " ++ cause

/-- The place of the database of a data directory, when it can be opened. -/
def databasePlace (h : Host S) (dir : String) : Except String (List String) :=
  match Place.openedFile (Place.databaseUrl dir) with
  | .error fault => .error (chained "error with configuration" fault.message)
  | .ok file =>
    let place := h.folder.place (h.absolute file)
    if h.folder.canHold place then .ok place
    else .error (chained "error returned from database" "(code: 14) unable to open database file")

/-- The host with a file for a database. -/
def hold (h : Host S) (place : List String) : Host S :=
  { h with folder := h.folder.touch place }

/-- The settings of a data directory. -/
def settings (h : Host S) (dir : String) : Settings :=
  .ofFile (h.folder.read (h.absolute (Place.settingsFile dir))).toOption

/-- The office over a database. -/
def officeAt (e : Equipment S) (h : Host S) (s : Settings) (place : List String) : Office S :=
  let catalog := (Catalog.load h.folder.read h.directory s.catalog).toOption.getD .empty
  let database := (h.databases.get? place).getD .empty
  { place := place
    settings := s
    equipment := { e with access := .ofEnvironment s.model h.value? }
    hall := ⟨Desk.ofSettings s catalog, ⟨database, h.server, h.draws⟩, 0⟩ }

/-- Opens an office in the data directory. -/
def openOffice (e : Equipment S) (h : Host S) : Host S × Except String (Office S) :=
  let dir := h.dataDir
  match h.folder.makeDirectory (h.absolute dir) with
  | .error fault => (h, .error fault.message)
  | .ok folder =>
    let h := { h with folder := folder }
    match h.databasePlace dir with
    | .error reason => (h, .error reason)
    | .ok place => (h.hold place, .ok (officeAt e h (h.settings dir) place))

/-- The host behind a run in an office. -/
def leave (h : Host S) (o : Office S) : Host S :=
  let w := o.hall.world
  { h with
    databases := h.databases.put o.place w.database
    server := w.server
    draws := w.draws }

end Host

end Colloquy
