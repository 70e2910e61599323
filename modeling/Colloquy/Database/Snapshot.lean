import Colloquy.Database.Basic
import Colloquy.Json.Printer
import Colloquy.Json.Reader
import Colloquy.Text.Hex
/-!
# Snapshots of a database

The tables as one JSON text, in which a database is kept between runs. An
empty text is an empty database.
-/

namespace Colloquy.Database

/-- The JSON form of a cell; octets are a list with their digits. -/
def Cell.toJson : Cell → Json
  | .int n => .int n
  | .text s => .text s
  | .octets bytes => .list [.text (Text.Hex.encode bytes)]

/-- The cell of a JSON form. -/
def Cell.ofJson? : Json → Option Cell
  | .int n => some (.int n)
  | .text s => some (.text s)
  | .list [.text digits] => (Text.Hex.decode? digits).map .octets
  | _ => none

/-- The JSON form of a room. -/
def RoomRow.toJson (row : RoomRow) : Json :=
  .list [row.key.toJson, row.active.toJson, row.createdAt.toJson]

/-- The room of a JSON form. -/
def RoomRow.ofJson? : Json → Option RoomRow
  | .list [key, active, createdAt] => do
    some ⟨← Cell.ofJson? key, ← Cell.ofJson? active, ← Cell.ofJson? createdAt⟩
  | _ => none

/-- The JSON form of a record. -/
def RecordRow.toJson (row : RecordRow) : Json :=
  .list [.text row.room, .text (Text.Hex.encode row.content)]

/-- The record of a JSON form. -/
def RecordRow.ofJson? : Json → Option RecordRow
  | .list [.text room, .text digits] => (Text.Hex.decode? digits).map fun c => ⟨room, c⟩
  | _ => none

/-- The JSON form of the tables. -/
def toJson (db : Database) : Json :=
  .object
    [(recordTable, .ofOption (fun rows => .list (rows.map RecordRow.toJson)) db.records),
      (roomTable, .ofOption (fun rows => .object (rows.map fun (name, row) => (name, row.toJson)))
        db.rooms)]

/-- The database of a JSON form. -/
def ofJson? (j : Json) : Option Database := do
  let records ← match j.get? recordTable with
    | some (.list rows) => (rows.mapM RecordRow.ofJson?).map some
    | some .null => some none
    | _ => none
  let rooms ← match j.get? roomTable with
    | some (.object rows) =>
      (rows.mapM fun (m : String × Json) => (RoomRow.ofJson? m.2).map fun r => (m.1, r)).map some
    | some .null => some none
    | _ => none
  some { rooms := rooms, records := records }

/-- The text in which a database is kept. -/
def snapshot (db : Database) : String := db.toJson.compact

/-- The database that a text keeps. -/
def ofSnapshot? (text : String) : Option Database :=
  if text.isEmpty then some .empty else (Json.parse? text).bind ofJson?

end Colloquy.Database
