import Colloquy.Dispatch.Rehearsal
import Colloquy.Proofs.Database.Removal
import Mathlib.Algebra.Group.Int.Defs
import Mathlib.Algebra.Group.Nat.Defs
import Mathlib.Data.List.Perm.Subperm
import Mathlib.Data.List.Nodup
import Mathlib.Data.List.Induction
/-!
# One table and a list for each room

The database keeps the records of all rooms in one table and finds those of a
room by their numbers; the rehearsed store keeps a list for each room. `shelf`
is what either of them should hold of a room after some calls, read off the
calls alone, and `expected` is the reply to a call that comes then. Both stores
give it (`stores_agree`), and so does a table that numbers its rows and is asked
as the statement reads: the rows of the room from the last number on, up to
the limit, and those from the first number on.

A limit is a word of 64 bits that the statement takes as a signed number. One
that turns negative sets no limit, and nothing is lost by that: a table whose
numbers have 63 bits holds no more rows than such a limit allows.
-/

namespace Colloquy

/-- A call to a store of records. -/
inductive RecordCall where
  /-- Stores a record. A table that numbers its rows gives it a number. -/
  | append (room : String) (content : List UInt8) (number : Nat)
  /-- Asks for the latest records of a room. -/
  | list (room : String) (limit : UInt64)
  /-- Deletes the records of a room. -/
  | delete (room : String)
deriving DecidableEq, Repr

/-- What a store replies. -/
inductive RecordReply where
  | done
  | listed (contents : List (List UInt8))
  | counted (count : Nat)
deriving DecidableEq, Repr

namespace RecordCall

/-- The number that a call gives. -/
def number? : RecordCall → Option Nat
  | append _ _ number => some number
  | _ => none

/-- The numbers that calls give. -/
def numbers (calls : List RecordCall) : List Nat := calls.filterMap number?

/-- Numbers as a table with an automatic key gives them: each above all before
it, and none of more than 63 bits. -/
structure Numbered (calls : List RecordCall) : Prop where
  increasing : (numbers calls).Pairwise (· < ·)
  bounded : ∀ number ∈ numbers calls, number < 2 ^ 63

/-- What is held of a room behind one more call. -/
def hold (room : String) (held : List (List UInt8)) : RecordCall → List (List UInt8)
  | append q content _ => if q = room then held ++ [content] else held
  | list _ _ => held
  | delete q => if q = room then [] else held

/-- **The records of a room behind calls**: what was appended to it since it
was last deleted, the oldest first. -/
def shelf (room : String) (calls : List RecordCall) : List (List UInt8) :=
  calls.foldl (hold room) []

/-- **The reply to a call behind others**: the last records of the room, all of
them when the limit is no less than their number, and the number of those that
are deleted. -/
def expected (calls : List RecordCall) : RecordCall → RecordReply
  | append _ _ _ => .done
  | list room limit =>
    let held := shelf room calls
    .listed (held.drop (held.length - min limit.toNat held.length))
  | delete room => .counted (shelf room calls).length

/-- A store behind calls. -/
def behind {σ ρ : Type} (serve : RecordCall → σ → σ × ρ) (s : σ) (calls : List RecordCall) : σ :=
  calls.foldl (fun s call => (serve call s).1) s

variable {calls : List RecordCall} {call : RecordCall}

theorem shelf_concat (room : String) (calls : List RecordCall) (call : RecordCall) :
    shelf room (calls ++ [call]) = hold room (shelf room calls) call := by
  simp only [shelf, List.foldl_append, List.foldl_cons, List.foldl_nil]

theorem behind_concat {σ ρ : Type} (serve : RecordCall → σ → σ × ρ) (s : σ)
    (calls : List RecordCall) (call : RecordCall) :
    behind serve s (calls ++ [call]) = (serve call (behind serve s calls)).1 := by
  simp only [behind, List.foldl_append, List.foldl_cons, List.foldl_nil]

theorem numbers_concat (calls : List RecordCall) (call : RecordCall) :
    numbers (calls ++ [call]) = numbers calls ++ call.number?.toList := by
  simp only [numbers, List.filterMap_append]
  cases call <;> rfl

theorem Numbered.of_concat (h : Numbered (calls ++ [call])) : Numbered calls where
  increasing := by
    have hincreasing := h.increasing
    rw [numbers_concat] at hincreasing
    exact (List.pairwise_append.1 hincreasing).1
  bounded number hnumber := h.bounded number <| by
    rw [numbers_concat]
    exact List.mem_append_left _ hnumber

/-- A number is above those that were given before. -/
theorem Numbered.above {room : String} {content : List UInt8} {number : Nat}
    (h : Numbered (calls ++ [append room content number])) : ∀ m ∈ numbers calls, m < number := by
  have hincreasing := h.increasing
  rw [numbers_concat] at hincreasing
  exact fun m hm => (List.pairwise_append.1 hincreasing).2.2 m hm number (.head _)

/-- **There are no more numbers than 63 bits have.** -/
theorem Numbered.length_le (h : Numbered calls) : (numbers calls).length ≤ 2 ^ 63 := by
  have hnodup : (numbers calls).Nodup := h.increasing.imp fun hlt => Nat.ne_of_lt hlt
  have hsubset : numbers calls ⊆ List.range (2 ^ 63) := fun m hm => List.mem_range.2 (h.bounded m hm)
  have hle := (hnodup.subperm hsubset).length_le
  rwa [List.length_range] at hle

/-- A record on a shelf has used up a number. -/
theorem length_shelf_le (room : String) (calls : List RecordCall) :
    (shelf room calls).length ≤ (numbers calls).length := by
  induction calls using List.reverseRecOn with
  | nil => exact Nat.le_refl 0
  | append_singleton calls call ih =>
    rw [shelf_concat, numbers_concat, List.length_append]
    cases call with
    | append q content number =>
      simp only [hold]
      split
      · rw [List.length_append]
        exact Nat.add_le_add_right ih 1
      · exact Nat.le_add_right_of_le ih
    | list q limit => exact Nat.le_add_right_of_le ih
    | delete q =>
      simp only [hold]
      split
      · exact Nat.zero_le _
      · exact Nat.le_add_right_of_le ih

/-- **What every call keeps, calls keep.** -/
theorem behind_keeps {σ ρ : Type} {serve : RecordCall → σ → σ × ρ}
    {holds : List RecordCall → σ → Prop} {s : σ} (h0 : holds [] s)
    (hstep : ∀ calls call s, Numbered (calls ++ [call]) → holds calls s →
      holds (calls ++ [call]) (serve call s).1) (calls : List RecordCall) (h : Numbered calls) :
    holds calls (behind serve s calls) := by
  induction calls using List.reverseRecOn with
  | nil => exact h0
  | append_singleton calls call ih =>
    rw [behind_concat]
    exact hstep calls call _ h (ih h.of_concat)

end RecordCall

/-! ## The numbered table -/

namespace Database

variable {α : Type}

/-- Rows up to a limit; a negative one is none. -/
def limited (limit : Int64) (rows : List α) : List α :=
  if limit < 0 then rows else rows.take limit.toNatClampNeg

/-- A word keeps its value as a signed number below the sign bit, and is
negative from there on. -/
theorem toInt_toInt64 (limit : UInt64) :
    limit.toInt64.toInt =
      if limit.toNat < 2 ^ 63 then (limit.toNat : Int) else limit.toNat - 2 ^ 64 := by
  change limit.toBitVec.toInt = _
  rw [BitVec.toInt_eq_toNat_cond, UInt64.toNat_toBitVec]
  split <;> split <;> omega

/-- The bound of a limit is the one that the statement sets. -/
theorem limited_toInt64 (limit : UInt64) (rows : List α) :
    limited limit.toInt64 rows.reverse = newest (rowBound limit.toNat) rows := by
  have hvalue := toInt_toInt64 limit
  have hlt := limit.toNat_lt
  have hsign : limit.toInt64 < 0 ↔ ¬ limit.toNat < 2 ^ 63 := by
    rw [Int64.lt_iff_toInt_lt, hvalue, Int64.toInt_zero]
    split <;> omega
  have hpow : Nat.pow 2 63 = 2 ^ 63 := rfl
  rw [limited, rowBound, hpow]
  by_cases hsmall : limit.toNat < 2 ^ 63
  · have hclamp : limit.toInt64.toNatClampNeg = limit.toNat := by
      rw [Int64.toNatClampNeg, hvalue, if_pos hsmall, Int.toNat_natCast]
    rw [if_neg fun h => hsign.1 h hsmall, if_pos hsmall, hclamp, newest]
  · rw [if_pos (hsign.2 hsmall), if_neg hsmall, newest]

/-- **A limit gives the last rows**, when there are no more of them than 63
bits have. -/
theorem reverse_newest (limit : UInt64) {rows : List α} (hrows : rows.length ≤ 2 ^ 63) :
    (newest (rowBound limit.toNat) rows).reverse =
      rows.drop (rows.length - min limit.toNat rows.length) := by
  have hpow : Nat.pow 2 63 = 2 ^ 63 := rfl
  rw [rowBound, hpow]
  by_cases hsmall : limit.toNat < 2 ^ 63
  · rw [if_pos hsmall, newest, List.take_reverse, List.reverse_reverse]
    congr 1
    omega
  · rw [if_neg hsmall, newest, List.reverse_reverse, Nat.min_eq_right (by omega), Nat.sub_self,
      List.drop_zero]

/-- A row of the table of records as it is stored. -/
structure NumberedRow where
  number : Nat
  row : RecordRow

namespace NumberedRow

/-- Rows from the last number on. -/
def latestFirst (rows : List NumberedRow) : List NumberedRow :=
  rows.mergeSort fun a b => b.number ≤ a.number

/-- Rows from the first number on. -/
def earliestFirst (rows : List NumberedRow) : List NumberedRow :=
  rows.mergeSort fun a b => a.number ≤ b.number

/-- The contents of a room's rows as they are selected: from the last number
on up to the limit, and these from the first number on. -/
def select (room : String) (limit : Int64) (rows : List NumberedRow) : List (List UInt8) :=
  (earliestFirst (limited limit (latestFirst (rows.filter fun r => r.row.room = room)))).map
    (·.row.content)

/-- A call to a numbered table. -/
def serve : RecordCall → List NumberedRow → List NumberedRow × RecordReply
  | .append room content number, rows => (rows ++ [⟨number, ⟨room, content⟩⟩], .done)
  | .list room limit, rows => (rows, .listed (select room limit.toInt64 rows))
  | .delete room, rows =>
    let kept := rows.filter fun r => r.row.room ≠ room
    (kept, .counted (rows.length - kept.length))

/-- Rows in the order of their numbers. -/
def InOrder (rows : List NumberedRow) : Prop := rows.Pairwise fun a b => a.number < b.number

variable {rows : List NumberedRow}

theorem InOrder.filter (h : InOrder rows) (test : NumberedRow → Bool) :
    InOrder (rows.filter test) :=
  List.Pairwise.filter test h

/-- A number is that of one row. -/
theorem InOrder.eq_of_number (h : InOrder rows) {a b : NumberedRow} (ha : a ∈ rows) (hb : b ∈ rows)
    (hnumber : a.number = b.number) : a = b := by
  have hnodup : (rows.map NumberedRow.number).Nodup :=
    List.pairwise_map.2 (h.imp fun hlt => Nat.ne_of_lt hlt)
  exact List.inj_on_of_nodup_map hnodup ha hb hnumber

/-- Rows that a sort by number leaves in some order are in that order alone. -/
theorem InOrder.eq_mergeSort (h : InOrder rows) (le : Nat → Nat → Bool)
    {given sorted : List NumberedRow} (hgiven : given.Perm rows) (hsorted : sorted.Perm rows)
    (htrans : ∀ a b c, le a b = true → le b c = true → le a c = true)
    (htotal : ∀ a b, (le a b || le b a) = true) (hanti : ∀ a b, le a b = true → le b a = true → a = b)
    (hle : sorted.Pairwise fun a b => le a.number b.number = true) :
    given.mergeSort (fun a b => le a.number b.number) = sorted := by
  have hperm := List.mergeSort_perm given fun a b => le a.number b.number
  have horder : (given.mergeSort fun a b => le a.number b.number).Pairwise
      fun a b => le a.number b.number = true :=
    List.pairwise_mergeSort (fun a b c => htrans a.number b.number c.number)
      (fun a b => htotal a.number b.number) given
  refine List.Perm.eq_of_pairwise (fun a b ha hb hab hba => ?_) horder hle
    (hperm.trans (hgiven.trans hsorted.symm))
  exact h.eq_of_number (hgiven.mem_iff.1 (hperm.mem_iff.1 ha)) (hsorted.mem_iff.1 hb)
    (hanti _ _ hab hba)

/-- From the last number on rows stand turned round. -/
theorem InOrder.latestFirst (h : InOrder rows) : latestFirst rows = rows.reverse := by
  refine h.eq_mergeSort (fun a b => decide (b ≤ a)) (List.Perm.refl rows)
    (List.reverse_perm rows) ?_ ?_ ?_ ?_
  · intro a b c; simp only [decide_eq_true_eq]; omega
  · intro a b; simp only [Bool.or_eq_true, decide_eq_true_eq]; omega
  · intro a b; simp only [decide_eq_true_eq]; omega
  · exact List.pairwise_reverse.2 (h.imp fun hlt => decide_eq_true (Nat.le_of_lt hlt))

/-- Rows in order that come turned round are put back by their numbers. -/
theorem InOrder.earliestFirst (h : InOrder rows) : earliestFirst rows.reverse = rows := by
  refine h.eq_mergeSort (fun a b => decide (a ≤ b)) (List.reverse_perm rows)
    (List.Perm.refl rows) ?_ ?_ ?_ ?_
  · intro a b c; simp only [decide_eq_true_eq]; omega
  · intro a b; simp only [Bool.or_eq_true, decide_eq_true_eq]; omega
  · intro a b; simp only [decide_eq_true_eq]; omega
  · exact h.imp fun hlt => decide_eq_true (Nat.le_of_lt hlt)

/-- The contents of a room's rows, without their numbers. -/
theorem map_content_filter (room : String) (rows : List NumberedRow) :
    (rows.filter fun r => r.row.room = room).map (·.row.content) =
      recordsIn room (rows.map NumberedRow.row) := by
  simp only [recordsIn, List.filter_map, List.map_map]
  rfl

/-- **A selection gives what the last rows of a room hold**, in order, when
there are no more rows than 63 bits have. -/
theorem InOrder.select (h : InOrder rows) (hrows : rows.length ≤ 2 ^ 63) (room : String)
    (limit : UInt64) :
    select room limit.toInt64 rows =
      let held := recordsIn room (rows.map NumberedRow.row)
      held.drop (held.length - min limit.toNat held.length) := by
  have hroom := h.filter fun r => decide (r.row.room = room)
  have hlength := (List.length_filter_le (fun r => decide (r.row.room = room)) rows).trans hrows
  have hdrop := reverse_newest limit hlength
  have hcount := congrArg List.length (map_content_filter room rows)
  rw [List.length_map] at hcount
  rw [NumberedRow.select, hroom.latestFirst, limited_toInt64, ← List.reverse_reverse
    (newest _ _), hdrop, InOrder.earliestFirst (List.Pairwise.drop hroom), List.map_drop,
    map_content_filter, hcount]

end NumberedRow

/-! ## The stores follow the shelves -/

open RecordCall

variable {calls : List RecordCall} {call : RecordCall}

/-- A call to the database. -/
def serveRecords : RecordCall → Database → Database × Except StorageError RecordReply
  | .append room content _, db =>
    let (db, r) := db.appendRecord room content
    (db, r.map fun _ => .done)
  | .list room limit, db => (db, (db.listRecords room limit.toNat).map .listed)
  | .delete room, db =>
    let (db, r) := db.deleteRecords room
    (db, r.map .counted)

/-- A database that holds what the calls say. -/
structure Holds (calls : List RecordCall) (db : Database) : Prop where
  serving : db.Serving
  contents : ∀ room, db.contents room = shelf room calls

variable {db : Database}

theorem countRecords_serving (hdb : db.Serving) (room : String) :
    db.countRecords room = .ok (db.contents room).length := by
  obtain ⟨rows, hrows⟩ := hdb.records
  simp only [countRecords, contents, hrows, table_some hdb.read, Option.getD_some, Except.map]

theorem deleteRecords_answer (hdb : db.Serving) (room : String) :
    (db.deleteRecords room).2 = .ok (db.contents room).length := by
  obtain ⟨rows, hrows⟩ := hdb.records
  simp only [deleteRecords, contents, hrows, table_some hdb.write, Option.getD_some,
    length_recordsIn]

/-- **The database gives the expected reply**, and holds what the calls say
behind it. -/
theorem Holds.serve (h : Holds calls db) (hnumbered : Numbered (calls ++ [call])) :
    (serveRecords call db).2 = .ok (expected calls call) ∧
      Holds (calls ++ [call]) (serveRecords call db).1 := by
  cases call with
  | append room content number =>
    obtain ⟨hok, hserving, -, hcontents⟩ := appendRecord_serving h.serving room content
    refine ⟨by simp only [serveRecords, hok]; rfl, hserving, fun q => ?_⟩
    rw [shelf_concat]
    refine (congrFun hcontents q).trans ?_
    simp only [shelve, hold, h.contents, eq_comm (a := q)]
  | list room limit =>
    have hlength : (db.contents room).length ≤ 2 ^ 63 := by
      rw [h.contents]
      exact (length_shelf_le room calls).trans hnumbered.of_concat.length_le
    refine ⟨?_, h.serving, fun q => by rw [shelf_concat]; exact h.contents q⟩
    rw [serveRecords, listRecords_serving h.serving, reverse_newest limit hlength, h.contents]
    rfl
  | delete room =>
    obtain ⟨hserving, -, hcontents⟩ := deleteRecords_serving h.serving room
    refine ⟨?_, hserving, fun q => ?_⟩
    · simp only [serveRecords, deleteRecords_answer h.serving, expected, h.contents]
      rfl
    · rw [shelf_concat]
      refine (congrFun hcontents q).trans ?_
      simp only [hold, h.contents, eq_comm (a := q)]

/-- A numbered table that holds what the calls say: its rows have numbers that
the calls gave, in that order. -/
structure NumberedRow.Hold (calls : List RecordCall) (rows : List NumberedRow) : Prop where
  numbers : (rows.map NumberedRow.number).Sublist (numbers calls)
  contents : ∀ room, recordsIn room (rows.map NumberedRow.row) = shelf room calls

/-- **The numbered table gives the expected reply**, and holds what the calls
say behind it. -/
theorem NumberedRow.Hold.serve {rows : List NumberedRow} (h : NumberedRow.Hold calls rows)
    (hnumbered : Numbered (calls ++ [call])) :
    (NumberedRow.serve call rows).2 = expected calls call ∧
      NumberedRow.Hold (calls ++ [call]) (NumberedRow.serve call rows).1 := by
  cases call with
  | append room content number =>
    refine ⟨rfl, ?_, fun q => ?_⟩
    · rw [numbers_concat]
      simp only [NumberedRow.serve, List.map_append]
      exact h.numbers.append (List.Sublist.refl _)
    · rw [shelf_concat]
      simp only [NumberedRow.serve, List.map_append, recordsIn_append, h.contents, hold]
      by_cases hq : room = q
      · simp [hq, recordsIn]
      · simp [hq, recordsIn]
  | list room limit =>
    have hinorder : InOrder rows :=
      List.pairwise_map.1 (hnumbered.of_concat.increasing.sublist h.numbers)
    have hlength : rows.length ≤ 2 ^ 63 := by
      have hle := h.numbers.length_le
      rw [List.length_map] at hle
      exact hle.trans hnumbered.of_concat.length_le
    refine ⟨?_, ?_, fun q => by rw [shelf_concat]; exact h.contents q⟩
    · simp only [NumberedRow.serve, hinorder.select hlength, h.contents, expected]
    · rw [numbers_concat]
      exact h.numbers.trans (List.sublist_append_left _ _)
  | delete room =>
    have hkept : (rows.filter fun r => r.row.room ≠ room).map NumberedRow.row =
        (rows.map NumberedRow.row).filter fun r => r.room ≠ room := by
      rw [List.filter_map]
      rfl
    refine ⟨?_, ?_, fun q => ?_⟩
    · have hcount := congrArg List.length hkept
      have hdeleted := length_recordsIn room (rows.map NumberedRow.row)
      rw [List.length_map] at hcount hdeleted
      simp only [NumberedRow.serve, expected, ← h.contents, hdeleted, hcount]
    · rw [numbers_concat]
      exact ((List.filter_sublist.map _).trans h.numbers).trans (List.sublist_append_left _ _)
    · rw [shelf_concat, NumberedRow.serve, hkept, recordsIn_filter_ne, h.contents, hold]
      simp only [eq_comm (a := q)]

end Database

namespace Rehearsal

open RecordCall

variable {calls : List RecordCall} {call : RecordCall}

/-- A call to the rehearsed store. -/
def serveRecords : RecordCall → Rehearsal → Rehearsal × Except StorageError RecordReply
  | .append room content _, w =>
    let (w, r) := w.appendRecord room content
    (w, r.map fun _ => .done)
  | .list room limit, w =>
    let (w, r) := w.listRecords room limit.toNat
    (w, r.map .listed)
  | .delete room, w =>
    let (w, r) := w.deleteRecords room
    (w, r.map .counted)

/-- A rehearsed store that holds what the calls say, and does not fail. -/
structure Holds (calls : List RecordCall) (w : Rehearsal) : Prop where
  failures : w.failures = {}
  records : ∀ room, w.recordsOf room = shelf room calls

/-- **The rehearsed store gives the expected reply**, and holds what the calls
say behind it. -/
theorem Holds.serve {w : Rehearsal} (h : Holds calls w) :
    (serveRecords call w).2 = .ok (expected calls call) ∧
      Holds (calls ++ [call]) (serveRecords call w).1 := by
  cases call with
  | append room content number =>
    have hpush : w.appendRecord room content =
        (({ w with appendAttempts := w.appendAttempts + 1 } : Rehearsal).push room content,
          .ok ()) := by
      simp only [appendRecord, h.failures]
    refine ⟨by simp only [serveRecords, hpush]; rfl, ?_, fun q => ?_⟩
    · simp only [serveRecords, hpush, push, h.failures]
    · rw [shelf_concat]
      simp only [serveRecords, hpush, recordsOf_push, shelve, hold, eq_comm (a := q), ← h.records]
      rfl
  | list room limit =>
    refine ⟨?_, h.failures, fun q => by rw [shelf_concat]; exact h.records q⟩
    have hlast : (shelf room calls).length - min limit.toNat (shelf room calls).length =
        (shelf room calls).length - limit.toNat := by omega
    simp only [serveRecords, listRecords, h.failures, orFail, h.records, Memory.lastOf, expected,
      hlast]
    rfl
  | delete room =>
    have hdeleted : w.deleteRecords room =
        ({ w with records := w.records.erase room }, .ok (w.recordsOf room).length) := by
      simp only [deleteRecords, h.failures]
    refine ⟨?_, ?_, fun q => ?_⟩
    · simp only [serveRecords, hdeleted, expected, h.records]
      rfl
    · simp only [serveRecords, hdeleted, h.failures]
    · rw [shelf_concat]
      simp only [serveRecords, hdeleted, recordsOf, Table.get?_erase, hold]
      by_cases hq : room = q
      · rw [if_pos hq, if_pos hq, Option.getD_none]
      · rw [if_neg hq, if_neg hq]
        exact h.records q

end Rehearsal

/-! ## The stores agree -/

namespace RecordCall

variable {calls : List RecordCall} {call : RecordCall}

/-- **The stores agree.** Behind any calls the next one has the same reply from
the database, from a table that numbers its rows and from the rehearsed store:
the expected one. And the database counts the records of every room. -/
theorem stores_agree (h : Numbered (calls ++ [call])) :
    (Database.serveRecords call (behind Database.serveRecords .empty calls)).2 =
        .ok (expected calls call) ∧
      (Rehearsal.serveRecords call (behind Rehearsal.serveRecords {} calls)).2 =
        .ok (expected calls call) ∧
      (Database.NumberedRow.serve call (behind Database.NumberedRow.serve [] calls)).2 =
        expected calls call ∧
      ∀ room, (behind Database.serveRecords .empty calls).countRecords room =
        .ok (shelf room calls).length := by
  have hdatabase : Database.Holds calls (behind Database.serveRecords .empty calls) :=
    behind_keeps ⟨Database.serving_empty, fun _ => rfl⟩ (fun _ _ _ h hdb => (hdb.serve h).2) calls
      h.of_concat
  have hrehearsal : Rehearsal.Holds calls (behind Rehearsal.serveRecords {} calls) :=
    behind_keeps ⟨rfl, fun _ => rfl⟩ (fun _ _ _ _ hw => hw.serve.2) calls h.of_concat
  have hnumbered : Database.NumberedRow.Hold calls (behind Database.NumberedRow.serve [] calls) :=
    behind_keeps ⟨List.Sublist.refl _, fun _ => rfl⟩ (fun _ _ _ h hrows => (hrows.serve h).2) calls
      h.of_concat
  refine ⟨(hdatabase.serve h).1, hrehearsal.serve.1, (hnumbered.serve h).1, fun room => ?_⟩
  rw [Database.countRecords_serving hdatabase.serving, hdatabase.contents]

/-- Three records of two rooms, a room that is emptied, and a limit that turns
negative. -/
theorem stores_agree_past_sign :
    let calls := [append "lobby" [1] 1, append "attic" [2] 2, append "lobby" [3] 5, delete "attic"]
    let call := list "lobby" 9223372036854775808
    Numbered (calls ++ [call]) ∧
      (Database.serveRecords call (behind Database.serveRecords .empty calls)).2 =
        .ok (.listed [[1], [3]]) ∧
      (Rehearsal.serveRecords call (behind Rehearsal.serveRecords {} calls)).2 =
        .ok (.listed [[1], [3]]) := by
  intro calls call
  have hnumbered : Numbered (calls ++ [call]) := ⟨by decide, by decide⟩
  have hexpected : expected calls call = .listed [[1], [3]] := by decide
  obtain ⟨hdatabase, hrehearsal, -, -⟩ := stores_agree hnumbered
  rw [hexpected] at hdatabase hrehearsal
  exact ⟨hnumbered, hdatabase, hrehearsal⟩

end RecordCall

end Colloquy
