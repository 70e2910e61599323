import Colloquy.Arguments.Errand
import Colloquy.Console.Report
import Colloquy.Console.Usage
import Colloquy.Dispatch.Run
import Colloquy.Site
/-!
# Carrying out errands

Each errand works on a hall and reports. Where a question to storage fails,
nothing has been written yet, and the failure is the report.
-/

namespace Colloquy.Console

variable {S : Type}

/-- The report of an answer from storage. -/
def ofStorage {α : Type} (f : α → Report) : Except StorageError α → Report
  | .ok a => f a
  | .error e => .error e.message

/-- Works on the site of a hall. -/
def onSite {α : Type} (h : Hall (Site S)) (work : Site S → Site S × Except StorageError α)
    (f : α → Report) : Hall (Site S) × Report :=
  let (world, r) := work h.world
  ({ h with world := world }, ofStorage f r)

/-- Registers a room, whose name must not be blank. -/
def registerRoom (e : Equipment S) (json : Bool) (room : String) (h : Hall (Site S)) :
    Hall (Site S) × Report :=
  if Text.isBlankText room then (h, .error "room id must not be empty")
  else onSite h (Site.registerRoom e h.now room) fun created => .ok (Report.registered json room created)

/-- The rooms with the numbers of their records. -/
def countedRooms (db : Database) (rooms : List RoomInfo) :
    Except StorageError (List (RoomInfo × Nat)) :=
  rooms.mapM fun room => (db.countRecords room.id).map fun count => (room, count)

/-- Lists the rooms. -/
def listRooms (json : Bool) (db : Database) : Report :=
  ofStorage (fun rooms =>
    if json then .ok (Report.roomsJson rooms)
    else if rooms.isEmpty then .ok Report.noRooms
    else ofStorage (fun counted => .ok (line (Report.roomGrid counted).text))
      (countedRooms db rooms)) db.listRooms

/-- Deactivates a room. -/
def deactivateRoom (json : Bool) (room : String) (h : Hall (Site S)) : Hall (Site S) × Report :=
  onSite h (Site.change (Database.deactivateRoom room)) fun found =>
    if found then .ok (Report.deactivated json room) else .error (Report.unregistered room)

/-- Removes a room, or warns of it when that is not forced. -/
def removeRoom (json : Bool) (room : String) (force : Bool) (h : Hall (Site S)) :
    Hall (Site S) × Report :=
  if force then
    onSite h (Site.change (Database.removeRoom room)) fun
      | some count => .ok (Report.removed json room count)
      | none => .error (Report.unregistered room)
  else
    onSite h (Site.query (Database.countRecords room)) fun count =>
      .ok (Report.removalWarning room count)

/-- Shows the window of a room. -/
def showMemory (e : Equipment S) (json : Bool) (room : String) (h : Hall (Site S)) :
    Hall (Site S) × Report :=
  match h.world.database.lookupKey room with
  | .error fault => (h, .error fault.message)
  | .ok none => (h, .error (Report.unregistered room ++ " or inactive"))
  | .ok (some key) =>
    let (h, w) := h.window (Site.ports e) room key
    (h, .ok (Report.memory json room w))

/-- Deletes the history of a room. -/
def clearMemory (e : Equipment S) (json : Bool) (room : String) (h : Hall (Site S)) :
    Hall (Site S) × Report :=
  let (h, deleted) := h.forget (Site.ports e) room
  (h, ofStorage (fun count => .ok (Report.cleared json room count)) deleted)

/-- Runs a message as a user in a room. -/
def ask (e : Equipment S) (json : Bool) (user room message : String) (h : Hall (Site S)) :
    Hall (Site S) × Report :=
  match h.message (Site.ports e) user room message none with
  | (h, none) => (h, .ok (Report.reply json none))
  | (h, some (.replied r)) => (h, .ok (Report.reply json (some r)))
  | (h, some _) => (h, .error "the command broke down")

/-- Carries out an errand. Serving has no end of its own and only says where
it listens. -/
def carryOut (e : Equipment S) (s : Settings) (json : Bool) (h : Hall (Site S)) :
    Errand → Hall (Site S) × Report
  | .serve host port => (h, .ok (Report.listening host port))
  | .ask user room message => ask e json user room (" ".intercalate message) h
  | .registerRoom room => registerRoom e json room h
  | .listRooms => (h, listRooms json h.world.database)
  | .deactivateRoom room => deactivateRoom json room h
  | .removeRoom room force => removeRoom json room force h
  | .showMemory room => showMemory e json room h
  | .clearMemory room => clearMemory e json room h
  | .listCatalog =>
    (h, .ok (Report.catalog json s.model.model s.catalog.agentsPath h.desk.catalog))
  | .completions shell => (h, .ok (completions shell))

end Colloquy.Console
