import Colloquy.Database.Basic
/-!
# Stored records

The records of all rooms share one table. A room's records are found in the
order in which they were stored, whatever other rooms stored between them.
-/

namespace Colloquy.Database

/-- The contents of a room's records, the oldest first. -/
def recordsIn (room : String) (rows : List RecordRow) : List (List UInt8) :=
  (rows.filter fun r => r.room = room).map (·.content)

/-- The bound that a limit sets. The limit is taken as a signed number of 64
bits, and a negative one sets no bound. -/
def rowBound (limit : Nat) : Option Nat :=
  if limit < Nat.pow 2 63 then some limit else none

/-- The last items up to a bound, the newest first. -/
def newest {α : Type} (bound : Option Nat) (items : List α) : List α :=
  match bound with
  | some n => items.reverse.take n
  | none => items.reverse

/-- The latest records of a room, the oldest first. -/
def listRecords (room : String) (limit : Nat) (db : Database) :
    Except StorageError (List (List UInt8)) :=
  (table db.canRead recordTable db.records).map fun rows =>
    (newest (rowBound limit) (recordsIn room rows)).reverse

/-- The number of a room's records. -/
def countRecords (room : String) (db : Database) : Except StorageError Nat :=
  (table db.canRead recordTable db.records).map fun rows => (recordsIn room rows).length

/-- Stores a record. -/
def appendRecord (room : String) (content : List UInt8) (db : Database) :
    Database × Except StorageError Unit :=
  match table db.canWrite recordTable db.records with
  | .error e => (db, .error e)
  | .ok rows => ({ db with records := some (rows ++ [⟨room, content⟩]) }, .ok ())

/-- Deletes the records of a room and counts them. -/
def deleteRecords (room : String) (db : Database) : Database × Except StorageError Nat :=
  match table db.canWrite recordTable db.records with
  | .error e => (db, .error e)
  | .ok rows =>
    let kept := rows.filter fun r => r.room ≠ room
    ({ db with records := some kept }, .ok (rows.length - kept.length))

end Colloquy.Database
