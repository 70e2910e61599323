import Colloquy.Database.Records
import Colloquy.Database.Rooms
import Colloquy.Proofs.Dispatch.Effect
import Colloquy.Proofs.Named
import Colloquy.Proofs.Room
/-!
# What statements do

The tables are seen through the row of a room (`row?`) and the contents of its
records (`contents`). In a database that executes its statements (`Serving`)
each statement is one equation for the rows, one for the contents and one for
its answer. The row of a room has its key from its first registration, and
what it is registered with later only changes whether it is active.
-/

namespace Colloquy.Database

/-- The row of a room. -/
def row? (db : Database) (room : String) : Option RoomRow := Named.find? room (db.rooms.getD [])

/-- The contents of a room's records, the oldest first. -/
def contents (db : Database) (room : String) : List (List UInt8) :=
  recordsIn room (db.records.getD [])

/-- A database that executes statements as they are written: both ways to it
are open, and its tables are there. -/
structure Serving (db : Database) : Prop where
  write : db.canWrite = true
  read : db.canRead = true
  rooms : ∃ rows, db.rooms = some rows
  records : ∃ rows, db.records = some rows

theorem serving_empty : empty.Serving := ⟨rfl, rfl, ⟨[], rfl⟩, ⟨[], rfl⟩⟩

theorem table_some {α : Type} {isOpen : Bool} (hopen : isOpen = true) (name : String) (rows : α) :
    table isOpen name (some rows) = .ok rows := by
  simp [table, hopen]

variable {db : Database}

/-! ## Records -/

theorem recordsIn_append (room : String) (rows more : List RecordRow) :
    recordsIn room (rows ++ more) = recordsIn room rows ++ recordsIn room more := by
  simp only [recordsIn, List.filter_append, List.map_append]

/-- **A record is stored** behind those of its room. -/
theorem appendRecord_serving (hdb : db.Serving) (room : String) (content : List UInt8) :
    (db.appendRecord room content).2 = .ok () ∧ (db.appendRecord room content).1.Serving ∧
      (db.appendRecord room content).1.row? = db.row? ∧
      (db.appendRecord room content).1.contents = shelve db.contents room [content] := by
  obtain ⟨rows, hrows⟩ := hdb.records
  have hnew : db.appendRecord room content =
      ({ db with records := some (rows ++ [⟨room, content⟩]) }, .ok ()) := by
    simp only [appendRecord, hrows, table_some hdb.write]
  rw [hnew]
  refine ⟨rfl, ⟨hdb.write, hdb.read, hdb.rooms, ⟨_, rfl⟩⟩, rfl, ?_⟩
  funext q
  simp only [contents, shelve, Option.getD_some, recordsIn_append, hrows]
  by_cases hq : q = room
  · subst hq
    simp [recordsIn]
  · rw [if_neg hq]
    simp [recordsIn, Ne.symm hq]

theorem recordsIn_filter_ne (room q : String) (rows : List RecordRow) :
    recordsIn q (rows.filter fun r => r.room ≠ room) =
      if q = room then [] else recordsIn q rows := by
  simp only [recordsIn, List.filter_filter]
  by_cases hq : q = room
  · subst hq
    rw [if_pos rfl, List.map_eq_nil_iff, List.filter_eq_nil_iff]
    intro row _
    simp
  · rw [if_neg hq]
    congr 1
    refine List.filter_congr fun row _ => ?_
    by_cases hrow : row.room = q
    · simp [hrow, hq]
    · simp [hrow]

/-- **The records of a room are deleted**, and those of no other. -/
theorem deleteRecords_serving (hdb : db.Serving) (room : String) :
    (db.deleteRecords room).1.Serving ∧ (db.deleteRecords room).1.row? = db.row? ∧
      (db.deleteRecords room).1.contents = fun q => if q = room then [] else db.contents q := by
  obtain ⟨rows, hrows⟩ := hdb.records
  have hnew : (db.deleteRecords room).1 =
      { db with records := some (rows.filter fun r => r.room ≠ room) } := by
    simp only [deleteRecords, hrows, table_some hdb.write]
  rw [hnew]
  refine ⟨⟨hdb.write, hdb.read, hdb.rooms, ⟨_, rfl⟩⟩, rfl, ?_⟩
  funext q
  simp only [contents, Option.getD_some, recordsIn_filter_ne, hrows]

/-- The latest records of a room are listed. -/
theorem listRecords_serving (hdb : db.Serving) (room : String) (limit : Nat) :
    db.listRecords room limit = .ok (newest (rowBound limit) (db.contents room)).reverse := by
  obtain ⟨rows, hrows⟩ := hdb.records
  simp only [listRecords, contents, hrows, table_some hdb.read, Option.getD_some, Except.map]

/-- Records that are no more than the limit are all listed. -/
theorem listRecords_all (hdb : db.Serving) {room : String} {limit : Nat}
    (hlength : (db.contents room).length ≤ limit) :
    db.listRecords room limit = .ok (db.contents room) := by
  rw [listRecords_serving hdb, rowBound]
  split
  · rw [newest, List.take_of_length_le (by rwa [List.length_reverse]), List.reverse_reverse]
  · rw [newest, List.reverse_reverse]

/-- What is listed of a room is among its records. -/
theorem mem_of_listRecords {room : String} {limit : Nat} {listed : List (List UInt8)}
    (h : db.listRecords room limit = .ok listed) {content : List UInt8} (hc : content ∈ listed) :
    content ∈ db.contents room := by
  have hnewest : ∀ (bound : Option Nat) (items : List (List UInt8)),
      content ∈ newest bound items → content ∈ items := by
    intro bound items hmem
    cases bound with
    | none => exact List.mem_reverse.1 hmem
    | some n => exact List.mem_reverse.1 (List.mem_of_mem_take hmem)
  simp only [listRecords] at h
  cases htable : table db.canRead recordTable db.records with
  | error e => rw [htable] at h; cases h
  | ok rows =>
    rw [htable] at h
    obtain rfl := Except.ok.inj h
    have hrows : db.records = some rows := by
      simp only [table] at htable
      split at htable
      · cases htable
      · split at htable
        · rename_i hsome
          rw [hsome, Except.ok.inj htable]
        · cases htable
    rw [contents, hrows]
    exact hnewest _ _ (List.mem_reverse.1 hc)

/-! ## Rooms -/

/-- A room's row is put in place. -/
theorem row?_insert (rows : List (String × RoomRow)) (room : String) (row : RoomRow)
    (hrows : db.rooms = some rows) :
    ({ db with rooms := some (Named.insert room row rows) } : Database).row? =
      fun q => if room = q then some row else db.row? q := by
  funext q
  simp only [row?, Option.getD_some, Named.find?_insert, hrows]

/-- **A row is inserted** where the room has none. -/
theorem insertRoom_serving (hdb : db.Serving) (room : String) (row : RoomRow) :
    (db.insertRoom room row).2 = .ok (db.row? room).isNone ∧ (db.insertRoom room row).1.Serving ∧
      (db.insertRoom room row).1.row? =
        (fun q => if room = q then some ((db.row? room).getD row) else db.row? q) ∧
      (db.insertRoom room row).1.contents = db.contents := by
  obtain ⟨rows, hrows⟩ := hdb.rooms
  have hrow : db.row? room = Named.find? room rows := by rw [row?, hrows, Option.getD_some]
  simp only [insertRoom, hrows, table_some hdb.write]
  cases hfind : Named.find? room rows with
  | none =>
    rw [hrow, hfind]
    exact ⟨rfl, ⟨hdb.write, hdb.read, ⟨_, rfl⟩, hdb.records⟩, row?_insert rows room row hrows, rfl⟩
  | some old =>
    rw [hrow, hfind]
    refine ⟨rfl, hdb, ?_, rfl⟩
    funext q
    by_cases hq : room = q
    · subst hq
      rw [if_pos rfl, hrow, hfind, Option.getD_some]
    · rw [if_neg hq]

/-- **A row is marked** as active or not, and keeps the rest. -/
theorem setActive_serving (hdb : db.Serving) (room : String) (active : Bool) :
    (db.setActive room active).2 = .ok (db.row? room).isSome ∧
      (db.setActive room active).1.Serving ∧
      (db.setActive room active).1.row? = (fun q => if room = q then
        (db.row? room).map fun row => { row with active := .int (if active then 1 else 0) }
        else db.row? q) ∧
      (db.setActive room active).1.contents = db.contents := by
  obtain ⟨rows, hrows⟩ := hdb.rooms
  have hrow : db.row? room = Named.find? room rows := by rw [row?, hrows, Option.getD_some]
  simp only [setActive, hrows, table_some hdb.write]
  cases hfind : Named.find? room rows with
  | none =>
    rw [hrow, hfind]
    refine ⟨rfl, hdb, ?_, rfl⟩
    funext q
    by_cases hq : room = q
    · subst hq
      rw [if_pos rfl, hrow, hfind, Option.map_none]
    · rw [if_neg hq]
  | some old =>
    rw [hrow, hfind]
    exact ⟨rfl, ⟨hdb.write, hdb.read, ⟨_, rfl⟩, hdb.records⟩, row?_insert rows room _ hrows, rfl⟩

/-- **A registered room has its old row, made active, or a fresh one.** -/
theorem registerRoom_serving (hdb : db.Serving) (room : String) (key : RoomKey) (now : Moment) :
    (db.registerRoom room key now).1.Serving ∧
      (db.registerRoom room key now).1.row? = (fun q => if room = q then
        some (match db.row? room with
          | some row => { row with active := .int 1 }
          | none => freshRow key now)
        else db.row? q) ∧
      (db.registerRoom room key now).1.contents = db.contents := by
  obtain ⟨hnew, hserving, hrows, hcontents⟩ := insertRoom_serving hdb room (freshRow key now)
  rcases hi : db.insertRoom room (freshRow key now) with ⟨db', result⟩
  rw [hi] at hnew hserving hrows hcontents
  dsimp only at hnew hserving hrows hcontents
  subst hnew
  simp only [registerRoom, hi]
  cases hold : db.row? room with
  | none =>
    rw [hold] at hrows
    exact ⟨hserving, hrows, hcontents⟩
  | some row =>
    -- the insertion has done nothing, and the row is made active
    rw [hold] at hrows
    obtain ⟨-, hserving', hrows', hcontents'⟩ := setActive_serving hserving room true
    refine ⟨hserving', ?_, hcontents'.trans hcontents⟩
    refine Eq.trans hrows' ?_
    funext q
    by_cases hq : room = q
    · subst hq
      simp only [hrows, if_true, Option.getD_some, Option.map_some]
    · simp only [if_neg hq, hrows]

/-- **A room is removed with its records**, and nothing is done for a room
without a row. -/
theorem removeRoom_serving (hdb : db.Serving) (room : String) :
    (db.removeRoom room).1.Serving ∧
      ((db.row? room).isSome = true →
        (db.removeRoom room).1.row? = (fun q => if room = q then none else db.row? q) ∧
        (db.removeRoom room).1.contents = fun q => if q = room then [] else db.contents q) ∧
      ((db.row? room).isSome = false → (db.removeRoom room).1 = db) := by
  obtain ⟨rows, hrows⟩ := hdb.rooms
  obtain ⟨stored, hstored⟩ := hdb.records
  have hrow : db.row? room = Named.find? room rows := by rw [row?, hrows, Option.getD_some]
  have hpass : ∀ step, pass db.removalFault step = .ok () := by
    intro step
    cases step <;> simp [pass, removalFault, hdb.write, hrows, hstored]
  have hdraft : removalDraft db.removalFault room db =
      .ok ((Named.find? room rows).map fun _ => ({ db with
        records := some (stored.filter fun r => r.room ≠ room)
        rooms := some (Named.erase room rows) },
          stored.length - (stored.filter fun r => r.room ≠ room).length)) := by
    simp only [removalDraft, hpass, hrows, hstored, Option.getD_some]
    cases Named.find? room rows <;> rfl
  simp only [removeRoom, removeRoomWith, hdraft]
  rw [hrow]
  cases Named.find? room rows with
  | none => exact ⟨hdb, fun hsome => absurd hsome Bool.false_ne_true, fun _ => rfl⟩
  | some old =>
    refine ⟨⟨hdb.write, hdb.read, ⟨_, rfl⟩, ⟨_, rfl⟩⟩, fun _ => ⟨?_, ?_⟩,
      fun hnone => by cases hnone⟩
    · funext q
      simp only [row?, Option.map_some, Option.getD_some, Named.find?_erase, hrows]
    · funext q
      simp only [contents, Option.map_some, Option.getD_some, recordsIn_filter_ne, hstored]

/-- **A key is found for an active room**, and is the one in its row. -/
theorem lookupKey_serving (hdb : db.Serving) (room : String) :
    db.lookupKey room =
      match db.row? room with
      | some row => if row.active = .int 1 then (keyOf room row.key).map some else .ok none
      | none => .ok none := by
  obtain ⟨rows, hrows⟩ := hdb.rooms
  cases hfind : Named.find? room rows with
  | none => simp only [lookupKey, row?, hrows, table_some hdb.read, Option.getD_some, hfind]
  | some row => simp only [lookupKey, row?, hrows, table_some hdb.read, Option.getD_some, hfind]

theorem keyOf_encode (room : String) (key : RoomKey) : keyOf room (.text key.encode) = .ok key := by
  simp only [keyOf, Cell.text?, RoomKey.decode_encode]

end Colloquy.Database
