import Colloquy.Database.Basic
/-!
# Registered rooms

A room gets its key when it is registered and keeps it until it is removed;
to deactivate it and to register it again only changes whether it is active.
`removeRoom` takes the records along: it works on a draft and puts that in
place in its last step, so that a failure at any step changes nothing.
-/

namespace Colloquy.Database

/-- Stores a room that has no row yet, and says whether it did. -/
def insertRoom (room : String) (row : RoomRow) (db : Database) :
    Database × Except StorageError Bool :=
  match table db.canWrite roomTable db.rooms with
  | .error e => (db, .error e)
  | .ok rooms =>
    match Named.find? room rooms with
    | none => ({ db with rooms := some (Named.insert room row rooms) }, .ok true)
    | some _ => (db, .ok false)

/-- Writes whether a room is active, and says whether it has a row. -/
def setActive (room : String) (active : Bool) (db : Database) :
    Database × Except StorageError Bool :=
  match table db.canWrite roomTable db.rooms with
  | .error e => (db, .error e)
  | .ok rooms =>
    match Named.find? room rooms with
    | none => (db, .ok false)
    | some row =>
      let row := { row with active := .int (if active then 1 else 0) }
      ({ db with rooms := some (Named.insert room row rooms) }, .ok true)

/-- The row of a room that is registered with a key at a moment. -/
def freshRow (key : RoomKey) (now : Moment) : RoomRow :=
  ⟨.text key.encode, .int 1, .text now.text⟩

/-- Registers a room with a key at a moment, or activates it when it has a
row. Says whether the room is new. -/
def registerRoom (room : String) (key : RoomKey) (now : Moment) (db : Database) :
    Database × Except StorageError Bool :=
  match db.insertRoom room (freshRow key now) with
  | (db, .ok false) =>
    let (db, activated) := db.setActive room true
    (db, activated.map fun _ => false)
  | answer => answer

/-- Deactivates a room, and says whether it has a row. -/
def deactivateRoom (room : String) (db : Database) : Database × Except StorageError Bool :=
  db.setActive room false

/-- The room of a row, if its cells can be read as one. -/
def roomInfo (id : String) (row : RoomRow) : Except StorageError RoomInfo :=
  match row.createdAt.text?, row.active.int? with
  | none, _ => .error (cellError "created_at")
  | _, none => .error (cellError "active")
  | some date, some active =>
    match Moment.ofStrict? date with
    | none => .error (.query "invalid datetime")
    | some moment => .ok ⟨id, active ≠ 0, moment⟩

/-- All rooms in the order of their names. -/
def listRooms (db : Database) : Except StorageError (List RoomInfo) :=
  match table db.canRead roomTable db.rooms with
  | .error e => .error e
  | .ok rooms => rooms.mapM fun (id, row) => roomInfo id row

/-- The key in a cell. -/
def keyOf (room : String) (cell : Cell) : Except StorageError RoomKey :=
  match cell.text? with
  | none => .error (cellError "room_key")
  | some text =>
    match RoomKey.decode text with
    | .ok key => .ok key
    | .error e => .error (.query ("stored key for room " ++ room ++ ": " ++ e.message))

/-- The key of a room that is active. -/
def lookupKey (room : String) (db : Database) : Except StorageError (Option RoomKey) :=
  match table db.canRead roomTable db.rooms with
  | .error e => .error e
  | .ok rooms =>
    match Named.find? room rooms with
    | some row => if row.active = .int 1 then (keyOf room row.key).map some else .ok none
    | none => .ok none

/-! ## Removal -/

/-- A step of a removal. -/
inductive RemovalStep where
  | start
  | deleteRecords
  | deleteRoom
  /-- The end of a removal that found no room. -/
  | rollback
  | commit
deriving DecidableEq, Repr

/-- The steps that fail in a database, and how. -/
def removalFault (db : Database) : RemovalStep → Option StorageError
  | .start => if db.canWrite then none else some closedError
  | .deleteRecords => if db.records.isSome then none else some (missingError recordTable)
  | .deleteRoom => if db.rooms.isSome then none else some (missingError roomTable)
  | _ => none

/-- Passes a step that does not fail. -/
def pass (fault : RemovalStep → Option StorageError) (step : RemovalStep) :
    Except StorageError Unit :=
  match fault step with
  | some e => .error e
  | none => .ok ()

/-- A draft without a room and its records, and the number of these. A room
without a row has no draft. -/
def removalDraft (fault : RemovalStep → Option StorageError) (room : String) (db : Database) :
    Except StorageError (Option (Database × Nat)) := do
  pass fault .start
  pass fault .deleteRecords
  let records := db.records.getD []
  let kept := records.filter fun r => r.room ≠ room
  pass fault .deleteRoom
  match Named.find? room (db.rooms.getD []) with
  | none =>
    pass fault .rollback
    .ok none
  | some _ =>
    pass fault .commit
    .ok (some ({ db with
      records := some kept
      rooms := some (Named.erase room (db.rooms.getD [])) }, records.length - kept.length))

/-- Removes a room with its records when some steps may fail, and gives the
number of the records. -/
def removeRoomWith (fault : RemovalStep → Option StorageError) (room : String) (db : Database) :
    Database × Except StorageError (Option Nat) :=
  match removalDraft fault room db with
  | .error e => (db, .error e)
  | .ok none => (db, .ok none)
  | .ok (some (draft, count)) => (draft, .ok (some count))

/-- Removes a room with its records. -/
def removeRoom (room : String) (db : Database) : Database × Except StorageError (Option Nat) :=
  removeRoomWith db.removalFault room db

end Colloquy.Database
