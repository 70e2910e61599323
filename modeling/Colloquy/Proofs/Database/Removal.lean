import Colloquy.Proofs.Database
/-!
# A room is removed as a whole or not at all

A removal deletes the records of its room before it knows whether the room has
a row. What keeps the records of a room without one, and those of a room whose
removal fails half-way, is the transaction around the two deletions. `Removal`
is that transaction between two steps: deletions go to its draft, and a commit
alone puts the draft in place of the tables. `Ends` walks it through its steps
and stops where one fails, and `removeRoomWith_ends` says that a removal is
this walk. `removed_or_untouched` is what can become of the tables.
-/

namespace Colloquy.Database

/-- The steps that fail in a database, and others that fail besides. -/
def faults (db : Database) (besides : RemovalStep → Option StorageError) (step : RemovalStep) :
    Option StorageError :=
  (db.removalFault step).or (besides step)

/-- A database without a room and its records. -/
def without (room : String) (db : Database) : Database :=
  { db with
    records := db.records.map fun rows => rows.filter fun r => r.room ≠ room
    rooms := db.rooms.map (Named.erase room) }

/-- A removal between two steps: the tables that everybody sees, the draft of
its transaction, and how many records and rows the draft has lost. -/
structure Removal where
  tables : Database
  draft : Database
  records : Nat := 0
  rooms : Nat := 0

namespace Removal

/-- A removal behind a step that does not fail. -/
def after (room : String) (t : Removal) : RemovalStep → Removal
  | .start => { t with draft := t.tables }
  | .deleteRecords =>
    let rows := t.draft.records.getD []
    let kept := rows.filter fun r => r.room ≠ room
    { t with draft := { t.draft with records := some kept }, records := rows.length - kept.length }
  | .deleteRoom =>
    let rows := t.draft.rooms.getD []
    let kept := Named.erase room rows
    { t with draft := { t.draft with rooms := some kept }, rooms := rows.length - kept.length }
  | .rollback => { t with draft := t.tables }
  | .commit => { t with tables := t.draft }

/-- The step behind a step. A removal that has deleted no row is rolled back. -/
def next? (t : Removal) : RemovalStep → Option RemovalStep
  | .start => some .deleteRecords
  | .deleteRecords => some .deleteRoom
  | .deleteRoom => some (if t.rooms = 0 then .rollback else .commit)
  | .rollback => none
  | .commit => none

/-- What is answered behind a last step. -/
def answer (t : Removal) : RemovalStep → Option Nat
  | .commit => some t.records
  | _ => none

/-- **How a removal ends** from a step on: the step fails, and the draft is
given up; or it is passed, and the removal goes on or is through. -/
inductive Ends (fault : RemovalStep → Option StorageError) (room : String) :
    Removal → RemovalStep → Database × Except StorageError (Option Nat) → Prop
  | failed {t : Removal} {step : RemovalStep} {e : StorageError} (h : fault step = some e) :
    Ends fault room t step (t.tables, .error e)
  | passed {t : Removal} {step step' : RemovalStep}
      {out : Database × Except StorageError (Option Nat)} (h : fault step = none)
      (hnext : (t.after room step).next? step = some step')
      (hends : Ends fault room (t.after room step) step' out) :
    Ends fault room t step out
  | through {t : Removal} {step : RemovalStep} (h : fault step = none)
      (hnext : (t.after room step).next? step = none) :
    Ends fault room t step
      ((t.after room step).tables, .ok ((t.after room step).answer step))

end Removal

variable {fault : RemovalStep → Option StorageError} {room : String} {db : Database}

/-! ## What is deleted -/

/-- As many records go as the room has. -/
theorem length_recordsIn (room : String) (rows : List RecordRow) :
    (recordsIn room rows).length = rows.length - (rows.filter fun r => r.room ≠ room).length := by
  have hsplit := List.length_eq_countP_add_countP (fun r : RecordRow => decide (r.room = room))
    (l := rows)
  simp only [recordsIn, List.length_map, ← List.countP_eq_length_filter, decide_eq_true_eq, ne_eq]
    at hsplit ⊢
  omega

/-- A room without a row loses none. -/
theorem erased_eq_zero_iff (room : String) (rows : List (String × RoomRow)) :
    rows.length - (Named.erase room rows).length = 0 ↔ Named.find? room rows = none := by
  induction rows with
  | nil => simp [Named.erase, Named.find?]
  | cons entry rest ih =>
    obtain ⟨name, row⟩ := entry
    have hle : (Named.erase room rest).length ≤ rest.length := List.length_filter_le _ _
    rw [Named.erase] at ih hle ⊢
    by_cases hname : name = room
    · rw [List.filter_cons_of_neg (by simp [hname]), Named.find?, if_pos hname, List.length_cons]
      simp only [reduceCtorEq, iff_false]
      omega
    · rw [List.filter_cons_of_pos (by simp [hname]), Named.find?, if_neg hname, ← ih,
        List.length_cons, List.length_cons]
      omega

/-! ## The walk through the steps -/

/-- The tables without a room and its records, as the deletions leave them. -/
def emptied (room : String) (db : Database) : Database :=
  { db with
    records := some ((db.records.getD []).filter fun r => r.room ≠ room)
    rooms := some (Named.erase room (db.rooms.getD [])) }

/-- **Where a removal stands before a step.** Up to its commit the tables are
those it started from. -/
def Removal.StandsAt (room : String) (db : Database) (t : Removal) : RemovalStep → Prop
  | .start => t.tables = db
  | .deleteRecords => t.tables = db ∧ t.draft = db
  | .deleteRoom =>
    t.tables = db ∧ t.records = (db.contents room).length ∧
      t.draft = { db with records := some ((db.records.getD []).filter fun r => r.room ≠ room) }
  | .rollback => t.tables = db ∧ db.row? room = none
  | .commit =>
    t.tables = db ∧ t.records = (db.contents room).length ∧ t.draft = db.emptied room ∧
      (db.row? room).isSome = true

/-- **One step of the walk** leads to where the next one is taken. -/
theorem Removal.StandsAt.next {t : Removal} {step step' : RemovalStep}
    (ht : t.StandsAt room db step) (hnext : (t.after room step).next? step = some step') :
    (t.after room step).StandsAt room db step' := by
  cases step with
  | start =>
    obtain rfl := Option.some.inj hnext
    exact ⟨ht, ht⟩
  | deleteRecords =>
    obtain rfl := Option.some.inj hnext
    obtain ⟨htables, hdraft⟩ := ht
    refine ⟨htables, ?_, ?_⟩
    · simp only [after, hdraft]
      exact (length_recordsIn room _).symm
    · simp only [after, hdraft]
  | deleteRoom =>
    obtain rfl := Option.some.inj hnext
    obtain ⟨htables, hrecords, hdraft⟩ := ht
    have hrooms : (t.after room .deleteRoom).rooms = 0 ↔ db.row? room = none := by
      simp only [after, hdraft]
      exact erased_eq_zero_iff room _
    by_cases hzero : (t.after room .deleteRoom).rooms = 0
    · rw [if_pos hzero]
      exact ⟨htables, hrooms.1 hzero⟩
    · rw [if_neg hzero]
      refine ⟨htables, hrecords, ?_, Option.isSome_iff_ne_none.2 fun hnone => hzero (hrooms.2 hnone)⟩
      simp only [after, hdraft, emptied]
  | rollback => cases hnext
  | commit => cases hnext

/-- The steps that follow a step, in a database where the room has a row or has
none. -/
def RemovalStep.beyond (found : Bool) : RemovalStep → List RemovalStep
  | .start => [.deleteRecords, .deleteRoom, if found then .commit else .rollback]
  | .deleteRecords => [.deleteRoom, if found then .commit else .rollback]
  | .deleteRoom => [if found then .commit else .rollback]
  | .rollback => []
  | .commit => []

/-- The walk takes these steps. -/
theorem Removal.StandsAt.beyond {t : Removal} {step step' : RemovalStep}
    (ht : t.StandsAt room db step) (hnext : (t.after room step).next? step = some step') :
    step.beyond (db.row? room).isSome = step' :: step'.beyond (db.row? room).isSome := by
  have hstands := ht.next hnext
  cases step with
  | start => obtain rfl := Option.some.inj hnext; rfl
  | deleteRecords => obtain rfl := Option.some.inj hnext; rfl
  | deleteRoom =>
    obtain rfl := Option.some.inj hnext
    -- which of the two last steps comes is what the row of the room decides
    by_cases hzero : (t.after room .deleteRoom).rooms = 0
    · simp only [if_pos hzero] at hstands ⊢
      rw [hstands.2]
      rfl
    · simp only [if_neg hzero] at hstands ⊢
      rw [hstands.2.2.2]
      rfl
  | rollback => cases hnext
  | commit => cases hnext

/-- What becomes of the tables, and what is answered, when a step fails or none
does. -/
def removalEnd (room : String) (db : Database) :
    Option StorageError → Database × Except StorageError (Option Nat)
  | some e => (db, .error e)
  | none =>
    if (db.row? room).isSome then (db.emptied room, .ok (some (db.contents room).length))
    else (db, .ok none)

/-- **The whole walk**: it ends with the first step that fails, and when none
fails with a commit or a rollback. The induction follows the steps. -/
theorem Removal.Ends.eq_removalEnd {t : Removal} {step : RemovalStep}
    {out : Database × Except StorageError (Option Nat)} (h : Ends fault room t step out)
    (ht : t.StandsAt room db step) :
    out = removalEnd room db
      ((step :: step.beyond (db.row? room).isSome).findSome? fault) := by
  induction h with
  | @failed t step e hfault =>
    have htables : t.tables = db := by cases step <;> first | exact ht.1 | exact ht
    rw [List.findSome?_cons, hfault, htables]
    rfl
  | @passed t step step' out hfault hnext _ ih =>
    rw [ih (ht.next hnext), ht.beyond hnext, List.findSome?_cons (a := step), hfault]
  | @through t step hfault hnext =>
    rw [List.findSome?_cons, hfault]
    cases step with
    | start => cases hnext
    | deleteRecords => cases hnext
    | deleteRoom => cases hnext
    | rollback =>
      obtain ⟨rfl, hrow⟩ := ht
      simp only [RemovalStep.beyond, List.findSome?_nil, removalEnd, hrow, Option.isSome_none,
        Bool.false_eq_true, if_false, after, answer]
    | commit =>
      obtain ⟨rfl, hrecords, hdraft, hrow⟩ := ht
      simp only [RemovalStep.beyond, List.findSome?_nil, removalEnd, hrow, if_true, after, hdraft,
        answer, hrecords]

/-- **A removal is the walk** from its first step. -/
theorem removeRoomWith_ends (fault : RemovalStep → Option StorageError) (room : String)
    (db : Database) :
    Removal.Ends fault room ⟨db, db, 0, 0⟩ .start (db.removeRoomWith fault room) := by
  have herased := erased_eq_zero_iff room (db.rooms.getD [])
  simp only [removeRoomWith, removalDraft, pass, bind, Except.bind]
  cases hstart : fault .start with
  | some e => exact .failed hstart
  | none =>
    refine .passed hstart rfl ?_
    cases hrecords : fault .deleteRecords with
    | some e => exact .failed hrecords
    | none =>
      refine .passed hrecords rfl ?_
      cases hroom : fault .deleteRoom with
      | some e => exact .failed hroom
      | none =>
        cases hfind : Named.find? room (db.rooms.getD []) with
        | none =>
          refine .passed hroom (congrArg some (if_pos (herased.2 hfind))) ?_
          cases hback : fault .rollback with
          | some e => exact .failed hback
          | none => exact .through hback rfl
        | some row =>
          have hrow : ¬ (db.rooms.getD []).length - (Named.erase room (db.rooms.getD [])).length = 0 :=
            fun hzero => by rw [herased.1 hzero] at hfind; cases hfind
          refine .passed hroom (congrArg some (if_neg hrow)) ?_
          cases hcommit : fault .commit with
          | some e => exact .failed hcommit
          | none => exact .through hcommit rfl

/-- The steps of a removal that fails at none of them. -/
def removalSteps (room : String) (db : Database) : List RemovalStep :=
  .start :: RemovalStep.start.beyond (db.row? room).isSome

/-- A removal is decided by the first of its steps that fails. -/
theorem removeRoomWith_eq (fault : RemovalStep → Option StorageError) (room : String)
    (db : Database) :
    db.removeRoomWith fault room = removalEnd room db ((db.removalSteps room).findSome? fault) :=
  (removeRoomWith_ends fault room db).eq_removalEnd rfl

/-! ## What becomes of the tables -/

/-- Where the deletions do not fail there are tables to delete from. -/
theorem emptied_eq_without {besides : RemovalStep → Option StorageError}
    (hrecords : db.faults besides .deleteRecords = none)
    (hroom : db.faults besides .deleteRoom = none) : db.emptied room = db.without room := by
  simp only [faults, removalFault, Option.or_eq_none_iff, ite_eq_left_iff, reduceCtorEq,
    imp_false, not_not] at hrecords hroom
  obtain ⟨records, hrecords⟩ := Option.isSome_iff_exists.1 hrecords.1
  obtain ⟨rooms, hrooms⟩ := Option.isSome_iff_exists.1 hroom.1
  simp only [emptied, without, hrecords, hrooms, Option.getD_some, Option.map_some]

/-- What is left of the other rooms when one is gone. -/
theorem row?_without {other : String} (hother : other ≠ room) :
    (db.without room).row? other = db.row? other := by
  cases hrooms : db.rooms with
  | none => simp only [row?, without, hrooms, Option.map_none]
  | some rooms =>
    simp only [row?, without, hrooms, Option.map_some, Option.getD_some, Named.find?_erase,
      if_neg (Ne.symm hother)]

theorem contents_without {other : String} (hother : other ≠ room) :
    (db.without room).contents other = db.contents other := by
  cases hrecords : db.records with
  | none => simp only [contents, without, hrecords, Option.map_none]
  | some records =>
    simp only [contents, without, hrecords, Option.map_some, Option.getD_some,
      recordsIn_filter_ne, if_neg hother]

/-- A removal that finds a row ends in a commit when nothing fails. -/
theorem answer_eq_some_iff {failed : Option StorageError} {count : Nat} :
    (removalEnd room db failed).2 = .ok (some count) ↔
      (db.row? room).isSome = true ∧ count = (db.contents room).length ∧ failed = none := by
  cases failed with
  | some e => simp [removalEnd]
  | none => cases hrow : db.row? room <;> simp [removalEnd, hrow, eq_comm]

/-- A removal that finds no row ends in a rollback when nothing fails. -/
theorem answer_eq_none_iff {failed : Option StorageError} :
    (removalEnd room db failed).2 = .ok none ↔ db.row? room = none ∧ failed = none := by
  cases failed with
  | some e => simp [removalEnd]
  | none => cases hrow : db.row? room <;> simp [removalEnd, hrow]

/-- **A room is removed as a whole or not at all**, in every database and
whatever else fails. -/
theorem removed_or_untouched (db : Database) (room : String)
    (besides : RemovalStep → Option StorageError) :
    let out := db.removeRoomWith (db.faults besides) room
    (∀ count, out.2 = .ok (some count) ↔
      (db.row? room).isSome = true ∧ count = (db.contents room).length ∧
        ∀ step ∈ [.start, .deleteRecords, .deleteRoom, .commit], db.faults besides step = none) ∧
    (out.2 = .ok none ↔
      db.row? room = none ∧
        ∀ step ∈ [.start, .deleteRecords, .deleteRoom, .rollback], db.faults besides step = none) ∧
    (match out.2 with
      | .ok (some _) => out.1 = db.without room
      | _ => out.1 = db) ∧
    ∀ other ≠ room, out.1.row? other = db.row? other ∧ out.1.contents other = db.contents other := by
  intro out
  have hout : out = removalEnd room db ((db.removalSteps room).findSome? (db.faults besides)) :=
    removeRoomWith_eq (db.faults besides) room db
  have htables : match out.2 with
      | .ok (some _) => out.1 = db.without room
      | _ => out.1 = db := by
    rw [hout]
    cases hfailed : (db.removalSteps room).findSome? (db.faults besides) with
    | some e => rfl
    | none =>
      have hall := List.findSome?_eq_none_iff.1 hfailed
      cases hrow : db.row? room with
      | none => simp only [removalEnd, hrow, Option.isSome_none, Bool.false_eq_true, if_false]
      | some row =>
        simp only [removalEnd, hrow, Option.isSome_some, if_true]
        exact emptied_eq_without (hall _ (.tail _ (.head _))) (hall _ (.tail _ (.tail _ (.head _))))
  refine ⟨fun count => ?_, ?_, htables, fun other hother => ?_⟩
  · rw [hout, answer_eq_some_iff, List.findSome?_eq_none_iff]
    refine and_congr_right fun hrow => ?_
    rw [removalSteps, hrow]
    rfl
  · rw [hout, answer_eq_none_iff, List.findSome?_eq_none_iff]
    refine and_congr_right fun hrow => ?_
    rw [removalSteps, hrow]
    rfl
  · -- the tables are the old ones, or those without the room
    rcases hanswer : out.2 with e | _ | count <;> rw [hanswer] at htables <;>
      simp only [htables, row?_without hother, contents_without hother, and_self]

/-- A room with two records is removed beside one that was never registered,
whose record stays. -/
theorem removed_beside_orphan :
    let db : Database :=
      { rooms := some [("lobby", ⟨.text "", .int 1, .text ""⟩)]
        records := some [⟨"lobby", [1]⟩, ⟨"den", [2]⟩, ⟨"lobby", [3]⟩] }
    (db.removeRoomWith (db.faults fun _ => none) "lobby").2 = .ok (some 2) ∧
      (db.removeRoomWith (db.faults fun _ => none) "den").2 = .ok none := by
  intro db
  exact ⟨((removed_or_untouched db "lobby" fun _ => none).1 2).2 ⟨rfl, rfl, by decide⟩,
    (removed_or_untouched db "den" fun _ => none).2.1.2 ⟨rfl, by decide⟩⟩

end Colloquy.Database
