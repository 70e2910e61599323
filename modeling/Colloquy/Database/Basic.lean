import Colloquy.Database.Cell
import Colloquy.Moment
import Colloquy.Named
import Colloquy.Room
import Colloquy.Storage
/-!
# The database

A table of rooms and a table of records. Rooms stand in the order of their
names, each name once, and records in the order in which they were stored,
the rooms mixed. Changes go through the writer and questions through the
reader, and each of the two can be closed; a table can be gone.
-/

namespace Colloquy

/-- A room as it is stored, without its name. -/
structure Database.RoomRow where
  key : Database.Cell
  active : Database.Cell
  createdAt : Database.Cell
deriving DecidableEq, Repr

/-- A stored record. -/
structure Database.RecordRow where
  room : String
  content : List UInt8
deriving DecidableEq, Repr

/-- The tables, and which ways to them are open. A table that is gone is
`none`. -/
structure Database where
  rooms : Option (List (String × Database.RoomRow)) := some []
  records : Option (List Database.RecordRow) := some []
  canWrite : Bool := true
  canRead : Bool := true

namespace Database

/-- A database without rooms and records. -/
def empty : Database := {}

/-- What is said when the way to the tables is closed. -/
def closedError : StorageError :=
  .query "attempted to acquire a connection on a closed pool"

/-- What is said when a table is gone. -/
def missingError (table : String) : StorageError :=
  .query ("error returned from database: (code: 1) no such table: " ++ table)

/-- What is said of a cell of another kind than its column's. -/
def cellError (column : String) : StorageError :=
  .query ("error occurred while decoding column \"" ++ column ++ "\"")

/-- A table, when the way to it is open. -/
def table {α : Type} (isOpen : Bool) (name : String) (rows : Option α) : Except StorageError α :=
  if !isOpen then .error closedError
  else
    match rows with
    | some rows => .ok rows
    | none => .error (missingError name)

/-- The name of the table of rooms. -/
def roomTable : String := "chat_rooms"

/-- The name of the table of records. -/
def recordTable : String := "chat_messages"

/-- Opens both ways to the tables. -/
def reopen (db : Database) : Database := { db with canWrite := true, canRead := true }

/-- Checks the way to write. -/
def reconnect (db : Database) : Except StorageError Unit :=
  if db.canWrite then .ok () else .error .connection

end Database

end Colloquy
