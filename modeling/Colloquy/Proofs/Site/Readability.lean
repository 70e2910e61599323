import Colloquy.Proofs.Database
import Colloquy.Proofs.Dispatch.Step
import Colloquy.Proofs.Dispatch.Uses
import Colloquy.Proofs.Memory.Loading
import Colloquy.Proofs.Model.Completion
import Colloquy.Proofs.Text.Utf8
import Colloquy.Site
/-!
# Stored history stays readable

At a site rooms are registered, deactivated and removed, histories are
forgotten, and commands run, one after another. Which key a room holds is read
off the log of these deeds (`holding`): the one it was first registered with,
until it is removed. `readable_of_deeds` says that the database follows the
log, and that every stored record opens under the key its room holds, between
two deeds and in the middle of a command.
-/

namespace Colloquy

namespace Loading

/-- How many records a load has skipped. -/
def skipped : Loading → Nat
  | .reading => 0
  | .summarizing _ skipped => skipped
  | .loaded window => window.recordsSkipped

theorem skipped_ofRecords (m : MemorySettings) (records : List String) (n : Nat) :
    (ofRecords m records n).skipped = n := by
  simp only [ofRecords]
  split
  · rfl
  · split <;> rfl

/-- A load skips what cannot be read, and nothing else. -/
theorem skipped_afterRead (m : MemorySettings) {readable : List UInt8 → Option String}
    {blobs : List (List UInt8)} (hread : ∀ blob ∈ blobs, (readable blob).isSome = true) :
    (afterRead m readable (.ok blobs)).skipped = 0 := by
  have hall : (blobs.filterMap readable).length = blobs.length := by
    rw [List.length_filterMap_eq_countP, List.countP_eq_length]
    exact hread
  rw [afterRead, skipped_ofRecords, hall, Nat.sub_self]

theorem recordsSkipped_afterSummary (m : MemorySettings) (records : List String) (n : Nat)
    (result : Except PipelineError String) :
    (afterSummary m records n result).recordsSkipped = n := by
  cases result <;> rfl

end Loading

/-- A window of records that can all be read skips none. -/
theorem Hall.recordsSkipped_window {W : Type} {p : Ports W} {h : Hall W} {room : String}
    {key : RoomKey}
    (hread : ∀ listed, (p.listRecords room h.desk.memory.maxRecords h.world).2 = .ok listed →
      ∀ content ∈ listed, (p.readable key content).isSome = true) :
    (h.window p room key).2.recordsSkipped = 0 := by
  have hskipped : (Loading.afterRead h.desk.memory (p.readable key)
      (p.listRecords room h.desk.memory.maxRecords h.world).2).skipped = 0 := by
    cases hlist : (p.listRecords room h.desk.memory.maxRecords h.world).2 with
    | error e => rfl
    | ok listed => exact Loading.skipped_afterRead _ (hread listed hlist)
  simp only [window]
  cases hload : Loading.afterRead h.desk.memory (p.readable key)
      (p.listRecords room h.desk.memory.maxRecords h.world).2 with
  | reading => rfl
  | loaded window =>
    rw [hload] at hskipped
    exact hskipped
  | summarizing records skipped =>
    rw [hload] at hskipped
    exact (Loading.recordsSkipped_afterSummary _ _ _ _).trans hskipped

namespace Site

/-- What is done at a site. -/
inductive Deed where
  | register (room : String)
  | deactivate (room : String)
  | remove (room : String)
  | forget (room : String)
  | command (r : Request) (timeout : Option Nat)
  | wait (ms : Nat)

/-- What a log says of a deed. -/
inductive Note where
  /-- A room was registered, with a key that was drawn for it. -/
  | registered (room : String) (key : RoomKey)
  | deactivated (room : String)
  | removed (room : String)
  /-- A deed that is not about the registration of a room. -/
  | other

/-- The key of a registered room, and whether the room is active. -/
structure Holding where
  key : RoomKey
  active : Bool

/-- What a room holds with one more note. A room that holds a key keeps it when
it is registered again. -/
def hold (room : String) (held : Option Holding) : Note → Option Holding
  | .registered q key =>
    if q = room then some ⟨(held.map Holding.key).getD key, true⟩ else held
  | .deactivated q => if q = room then held.map fun k => { k with active := false } else held
  | .removed q => if q = room then none else held
  | .other => held

/-- **What a room holds** after a log. -/
def holding (log : List Note) (room : String) : Option Holding := log.foldl (hold room) none

theorem holding_concat (log : List Note) (note : Note) (room : String) :
    holding (log ++ [note]) room = hold room (holding log room) note := by
  simp only [holding, List.foldl_append, List.foldl_cons, List.foldl_nil]

variable {S : Type}

/-- One deed, and what the log says of it. -/
def perform (e : Equipment S) (h : Hall (Site S)) : Deed → Hall (Site S) × Note
  | .register room =>
    ({ h with world := (registerRoom e h.now room h.world).1 },
      .registered room (e.key h.world.draws))
  | .deactivate room =>
    ({ h with world := (change (Database.deactivateRoom room) h.world).1 }, .deactivated room)
  | .remove room =>
    ({ h with world := (change (Database.removeRoom room) h.world).1 }, .removed room)
  | .forget room => ((h.forget (ports e) room).1, .other)
  | .command r timeout => ((h.command (ports e) r timeout).1, .other)
  | .wait ms => (h.advance ms, .other)

/-- Deeds one after another, and their log. -/
def performAll (e : Equipment S) (h : Hall (Site S)) (deeds : List Deed) :
    Hall (Site S) × List Note :=
  deeds.foldl (fun done deed =>
    ((perform e done.1 deed).1, done.2 ++ [(perform e done.1 deed).2])) (h, [])

theorem perform_command (e : Equipment S) (h : Hall (Site S)) (r : Request)
    (timeout : Option Nat) :
    (perform e h (.command r timeout)).1 = (h.command (ports e) r timeout).1 := rfl

/-- The hall behind deeds does not depend on what is logged of them. -/
theorem fst_performAll (e : Equipment S) (h : Hall (Site S)) (deeds : List Deed) :
    (performAll e h deeds).1 = deeds.foldl (fun h deed => (perform e h deed).1) h :=
  (List.foldl_hom Prod.fst (fun _ _ => rfl)).symm

/-! ## What the database has to do with the log -/

variable {e : Equipment S} {held : String → Option Holding}

/-- **The database is what the rooms hold**: a row with its key for each room
that holds one, and no record but under such a key. -/
structure Sound (e : Equipment S) (db : Database) (held : String → Option Holding) : Prop where
  serving : db.Serving
  absent : ∀ room, held room = none → db.row? room = none
  present : ∀ room k, held room = some k → ∃ createdAt,
    db.row? room = some ⟨.text k.key.encode, .int (if k.active then 1 else 0), createdAt⟩
  opens : ∀ room content, content ∈ db.contents room →
    ∃ k text, held room = some k ∧ (ports e).readable k.key content = some text

theorem sound_empty (e : Equipment S) : Sound e .empty fun _ => none where
  serving := Database.serving_empty
  absent _ _ := rfl
  present _ _ hheld := by cases hheld
  opens _ _ hcontent := absurd hcontent List.not_mem_nil

/-- A look-up finds the key of an active room. -/
theorem Sound.lookupKey {db : Database} (h : Sound e db held) (room : String) :
    db.lookupKey room = .ok (((held room).filter Holding.active).map Holding.key) := by
  rw [Database.lookupKey_serving h.serving]
  cases hheld : held room with
  | none => rw [h.absent room hheld]; rfl
  | some k =>
    obtain ⟨createdAt, hrow⟩ := h.present room k hheld
    rw [hrow]
    cases hactive : k.active with
    | true => simp [Database.keyOf_encode, Option.filter, hactive, Except.map]
    | false => simp [Option.filter, hactive]

/-- **A change to one room is sound**, if its row is what it holds then, and the
records that are left open under what their rooms hold. -/
theorem Sound.of_room {db db' : Database} {held' : String → Option Holding}
    (h : Sound e db held) (room : String) (hserving : db'.Serving)
    (hothers : ∀ q, q ≠ room → held' q = held q ∧ db'.row? q = db.row? q)
    (habsent : held' room = none → db'.row? room = none)
    (hpresent : ∀ k, held' room = some k → ∃ createdAt,
      db'.row? room = some ⟨.text k.key.encode, .int (if k.active then 1 else 0), createdAt⟩)
    (hopens : ∀ q content, content ∈ db'.contents q →
      ∃ k text, held' q = some k ∧ (ports e).readable k.key content = some text) :
    Sound e db' held' := by
  refine ⟨hserving, fun q hq => ?_, fun q k hq => ?_, hopens⟩
  · by_cases hroom : q = room
    · exact hroom ▸ habsent (hroom ▸ hq)
    · obtain ⟨hheld, hrow⟩ := hothers q hroom
      exact hrow.trans (h.absent q (hheld ▸ hq))
  · by_cases hroom : q = room
    · subst hroom
      exact hpresent k hq
    · obtain ⟨hheld, hrow⟩ := hothers q hroom
      rw [hrow]
      exact h.present q k (hheld ▸ hq)

/-- Records that are as they were open, if the rooms that hold keys keep them. -/
theorem Sound.opens_of_keys {db db' : Database} {held' : String → Option Holding}
    (h : Sound e db held) (hcontents : db'.contents = db.contents)
    (hkeys : ∀ room k, held room = some k → ∃ k', held' room = some k' ∧ k'.key = k.key) :
    ∀ q content, content ∈ db'.contents q →
      ∃ k text, held' q = some k ∧ (ports e).readable k.key content = some text := by
  intro q content hc
  rw [hcontents] at hc
  obtain ⟨k, text, hk, htext⟩ := h.opens q content hc
  obtain ⟨k', hk', hkey⟩ := hkeys q k hk
  exact ⟨k', text, hk', hkey ▸ htext⟩

/-- **A registration is sound**: a room that holds a key keeps it, and another
one gets the key that was drawn. -/
theorem Sound.registered {db : Database} (h : Sound e db held) (room : String) (key : RoomKey)
    (now : Moment) :
    Sound e (db.registerRoom room key now).1 fun q => hold q (held q) (.registered room key) := by
  obtain ⟨hserving, hrows, hcontents⟩ := Database.registerRoom_serving h.serving room key now
  have hself : hold room (held room) (.registered room key) =
      some ⟨((held room).map Holding.key).getD key, true⟩ := if_pos rfl
  refine h.of_room room hserving (fun q hq => ?_) (fun hnone => ?_) (fun k hk => ?_)
    (h.opens_of_keys hcontents fun q k hk => ?_)
  · exact ⟨if_neg (Ne.symm hq), by rw [hrows]; exact if_neg (Ne.symm hq)⟩
  · rw [hself] at hnone
    cases hnone
  · rw [hself] at hk
    obtain rfl := Option.some.inj hk
    rw [hrows]
    simp only [if_true]
    cases hheld : held room with
    | none => rw [h.absent room hheld]; exact ⟨_, rfl⟩
    | some old =>
      obtain ⟨createdAt, hrow⟩ := h.present room old hheld
      rw [hrow]
      exact ⟨createdAt, rfl⟩
  · by_cases hq : room = q
    · subst hq
      exact ⟨_, hself, by rw [hk]; rfl⟩
    · exact ⟨k, (if_neg hq).trans hk, rfl⟩

/-- A deactivation is sound. -/
theorem Sound.deactivated {db : Database} (h : Sound e db held) (room : String) :
    Sound e (db.deactivateRoom room).1 fun q => hold q (held q) (.deactivated room) := by
  obtain ⟨-, hserving, hrows, hcontents⟩ := Database.setActive_serving h.serving room false
  have hself : hold room (held room) (.deactivated room) =
      (held room).map fun k => { k with active := false } := if_pos rfl
  have hrow : (db.deactivateRoom room).1.row? room =
      (db.row? room).map fun row => { row with active := .int 0 } :=
    (congrFun hrows room).trans (if_pos rfl)
  refine h.of_room room hserving (fun q hq => ?_) (fun hnone => ?_) (fun k hk => ?_)
    (h.opens_of_keys hcontents fun q k hk => ?_)
  · exact ⟨if_neg (Ne.symm hq), (congrFun hrows q).trans (if_neg (Ne.symm hq))⟩
  · rw [hself, Option.map_eq_none_iff] at hnone
    rw [hrow, h.absent room hnone]
    rfl
  · rw [hself] at hk
    obtain ⟨old, hold, rfl⟩ := Option.map_eq_some_iff.1 hk
    obtain ⟨createdAt, hpresent⟩ := h.present room old hold
    rw [hrow, hpresent]
    exact ⟨createdAt, rfl⟩
  · by_cases hq : room = q
    · subst hq
      exact ⟨{ k with active := false }, by rw [hself, hk]; rfl, rfl⟩
    · exact ⟨k, (if_neg hq).trans hk, rfl⟩

/-- **A removal is sound**: with the key of a room its records are gone. -/
theorem Sound.removed {db : Database} (h : Sound e db held) (room : String) :
    Sound e (db.removeRoom room).1 fun q => hold q (held q) (.removed room) := by
  obtain ⟨hserving, hsome, hnone⟩ := Database.removeRoom_serving h.serving room
  have hself : hold room (held room) (.removed room) = none := if_pos rfl
  have hothers : ∀ q, q ≠ room → hold q (held q) (.removed room) = held q :=
    fun q hq => if_neg (Ne.symm hq)
  cases hrow : (db.row? room).isSome with
  | false =>
    -- a room without a row holds nothing
    have hheld : held room = none := by
      cases hk : held room with
      | none => rfl
      | some k =>
        obtain ⟨createdAt, hpresent⟩ := h.present room k hk
        rw [hpresent] at hrow
        cases hrow
    have hsame : (fun q => hold q (held q) (.removed room)) = held := by
      funext q
      by_cases hq : q = room
      · rw [hq, hself, hheld]
      · exact hothers q hq
    rw [hsame, hnone hrow]
    exact h
  | true =>
    obtain ⟨hrows, hcontents⟩ := hsome hrow
    refine h.of_room room hserving (fun q hq => ⟨hothers q hq, ?_⟩) (fun _ => ?_) (fun k hk => ?_)
      fun q content hc => ?_
    · exact (congrFun hrows q).trans (if_neg (Ne.symm hq))
    · exact (congrFun hrows room).trans (if_pos rfl)
    · rw [hself] at hk
      cases hk
    · rw [hcontents] at hc
      by_cases hq : q = room
      · simp only [if_pos hq] at hc
        cases hc
      · simp only [if_neg hq] at hc
        rw [hothers q hq]
        exact h.opens q content hc

/-- Records that are as they were but in one room, over the same rows. -/
theorem Sound.of_contents {db db' : Database} (h : Sound e db held) (hserving : db'.Serving)
    (hrows : db'.row? = db.row?)
    (hopens : ∀ q content, content ∈ db'.contents q →
      ∃ k text, held q = some k ∧ (ports e).readable k.key content = some text) :
    Sound e db' held where
  serving := hserving
  absent q hq := by rw [hrows]; exact h.absent q hq
  present q k hq := by rw [hrows]; exact h.present q k hq
  opens := hopens

/-- To forget a history is sound. -/
theorem Sound.forgotten {db : Database} (h : Sound e db held) (room : String) :
    Sound e (db.deleteRecords room).1 held := by
  obtain ⟨hserving, hrows, hcontents⟩ := Database.deleteRecords_serving h.serving room
  refine h.of_contents hserving hrows fun q content hc => ?_
  rw [hcontents] at hc
  by_cases hroom : q = room
  · simp only [if_pos hroom] at hc
    cases hc
  · simp only [if_neg hroom] at hc
    exact h.opens q content hc

/-- **A record is sound** that opens under the key its room holds. -/
theorem Sound.appended {db : Database} (h : Sound e db held) {room text : String} {k : Holding}
    {record : List UInt8} (hk : held room = some k)
    (htext : (ports e).readable k.key record = some text) :
    Sound e (db.appendRecord room record).1 held := by
  obtain ⟨-, hserving, hrows, hcontents⟩ := Database.appendRecord_serving h.serving room record
  refine h.of_contents hserving hrows fun q content hc => ?_
  rw [hcontents] at hc
  by_cases hroom : q = room
  · subst hroom
    simp only [shelve, if_true, List.mem_append, List.mem_singleton] at hc
    rcases hc with hc | rfl
    · exact h.opens q content hc
    · exact ⟨k, text, hk, htext⟩
  · simp only [shelve, if_neg hroom] at hc
    exact h.opens q content hc

/-! ## Commands -/

/-- A call changes the database when it is a write, and not otherwise. -/
theorem serve_database (e : Equipment S) (w : Site S) (call : Call) :
    ((ports e).serve w call).1.database =
      match call with
      | .appendRecord room record => (w.database.appendRecord room record).1
      | _ => w.database := by
  cases call <;> rfl

/-- A step behind an answer draws a nonce at most. -/
theorem next_database {d : Desk} {w : Site S} {now : Nat} {r : Request} {stage : Stage}
    {answer : Answer} {next : Desk × Site S × Stage}
    (hnext : Stage.Next (ports e) d w now r stage answer next) :
    next.2.1.database = w.database := by
  cases hnext <;> rfl

theorem length_octets (e : Equipment S) (draw count : Nat) :
    (e.octets draw count).length = count := by
  simp [Equipment.octets]

/-- **An exchange that is sealed can be read.** -/
theorem readable_encrypt (e : Equipment S) (key : RoomKey) (plaintext : String) (w : Site S) :
    (ports e).readable key
      (Saving.recordOf plaintext ((ports e).encrypt key (Text.Utf8.encode plaintext) w).2) =
      some plaintext := by
  simp only [ports, encrypt, Saving.recordOf, Ports.readable,
    RoomCipher.decrypt_encrypt key (length_octets e _ _), Text.Utf8.decode?_encode]

/-- **A command under way is sound**: the key it works with is the one its room
holds, and the record it has to write opens under that. -/
structure Follows (e : Equipment S) (held : String → Option Holding) (r : Request)
    (h : Hall (Site S)) (stage : Stage) : Prop where
  sound : Sound e h.world.database held
  keyed : ∀ key, stage.key? = some key → ∃ k, held r.room = some k ∧ k.key = key
  sealed : ∀ record, stage.record? = some record →
    ∃ k text, held r.room = some k ∧ (ports e).readable k.key record = some text

variable {r : Request}

/-- A command with a key, and no record to write. -/
theorem Follows.working {h : Hall (Site S)} {stage : Stage} (hsound : Sound e h.world.database held)
    (hkeyed : ∀ key, stage.key? = some key → ∃ k, held r.room = some k ∧ k.key = key)
    (hrecord : stage.record? = none) : Follows e held r h stage := by
  refine ⟨hsound, hkeyed, fun record hsome => ?_⟩
  rw [hrecord] at hsome
  cases hsome

/-- A command with a record to write, which needs its key no more. -/
theorem Follows.writing {h : Hall (Site S)} {stage : Stage} (hsound : Sound e h.world.database held)
    (hkey : stage.key? = none)
    (hsealed : ∀ record, stage.record? = some record →
      ∃ k text, held r.room = some k ∧ (ports e).readable k.key record = some text) :
    Follows e held r h stage := by
  refine ⟨hsound, fun key hsome => ?_, hsealed⟩
  rw [hkey] at hsome
  cases hsome

/-- A command with neither. -/
theorem Follows.idle {h : Hall (Site S)} {stage : Stage} (hsound : Sound e h.world.database held)
    (hkey : stage.key? = none) (hrecord : stage.record? = none) : Follows e held r h stage := by
  refine .working hsound (fun key hsome => ?_) hrecord
  rw [hkey] at hsome
  cases hsome

/-- What a command is served with leaves the database sound. -/
theorem Follows.served {h : Hall (Site S)} {stage : Stage} {call : Call}
    (hh : Follows e held r h stage) (hc : stage.call? h.desk r = some call) :
    Sound e ((ports e).serve h.world call).1.database held := by
  rw [serve_database]
  split
  · rename_i room record
    obtain ⟨hroom, hrecord, -⟩ := Stage.write_of_call hc
    obtain ⟨k, text, hk, htext⟩ := hh.sealed record hrecord
    exact hh.sound.appended (hroom ▸ hk) htext
  · exact hh.sound

/-- **A command goes on to be sound.** -/
theorem Follows.next {h : Hall (Site S)} {stage : Stage} {call : Call} {later : Nat}
    {next : Desk × Site S × Stage} (hh : Follows e held r h stage)
    (hc : stage.call? h.desk r = some call)
    (hnext : Stage.Next (ports e) h.desk ((ports e).serve h.world call).1 later r stage
      ((ports e).serve h.world call).2.2 next) :
    Follows e held r ⟨next.1, next.2.1, later⟩ next.2.2 := by
  have hsound : Sound e next.2.1.database held := by
    rw [next_database hnext]
    exact hh.served hc
  have hexpected := Stage.expects_of_call hc (ports e) h.world
  -- the key that comes back is the one the room holds
  have hfound : ∀ agent task key, stage = .lookup agent task →
      ((ports e).serve h.world call).2.2 = .key (.ok (some key)) →
      ∃ k, held r.room = some k ∧ k.key = key := by
    rintro agent task key rfl hanswer
    obtain rfl : call = .lookupKey r.room := (Option.some.inj hc).symm
    have hlookup := hh.sound.lookupKey r.room
    simp only [Ports.serve, ports, query, Answer.key.injEq, hlookup, Except.ok.injEq,
      Option.map_eq_some_iff, Option.filter_eq_some_iff] at hanswer
    obtain ⟨k, ⟨hk, -⟩, hkey⟩ := hanswer
    exact ⟨k, hk, hkey⟩
  obtain ⟨-, hkeyed, hsealed⟩ := hh
  generalize ((ports e).serve h.world call).2.2 = answer at hnext hexpected hfound
  cases hnext with
  | registryFailed => exact .idle hsound rfl rfl
  | unregistered => exact .idle hsound rfl rfl
  | entered =>
    refine .working hsound (fun key hkey => ?_) rfl
    cases hkey
    exact hfound _ _ _ rfl rfl
  | condensing => exact .working hsound hkeyed rfl
  | read => exact .working hsound hkeyed rfl
  | condensed => exact .working hsound hkeyed rfl
  | unanswered => exact .working hsound hkeyed rfl
  | failed => exact .idle hsound rfl rfl
  | answered =>
    refine .writing hsound rfl fun record hrecord => ?_
    obtain rfl := Option.some.inj hrecord
    obtain ⟨k, hk, rfl⟩ := hkeyed _ rfl
    exact ⟨k, _, hk, readable_encrypt e k.key _ _⟩
  | rested => exact .working hsound hkeyed rfl
  | unwritten => exact .writing hsound rfl hsealed
  | reconnected => exact .writing hsound rfl hsealed
  | saved => exact .idle hsound rfl rfl
  | stray hstray =>
    rw [hstray] at hexpected
    cases hexpected

/-- **Wherever a command comes it is sound**, if it begins over a sound
database. -/
theorem follows_of_underway {h₀ h : Hall (Site S)} {stage : Stage}
    (h0 : Sound e h₀.world.database held) (hunder : Hall.Underway (ports e) h₀ r h stage) :
    Follows e held r h stage := by
  refine hunder.keeps (J := Follows e held r) ?_ ?_
  · have hbegun := Stage.start_begun h₀.desk h₀.now r
    generalize Stage.start h₀.desk h₀.now r = next at hbegun
    cases hbegun <;> exact .idle h0 rfl rfl
  · intro h stage call later next hc _ hnext hh
    exact hh.next hc hnext

/-- A command leaves the database sound, whether it is dropped or not. -/
theorem Sound.commanded {h : Hall (Site S)} (h0 : Sound e h.world.database held) (r : Request)
    (timeout : Option Nat) :
    Sound e (h.command (ports e) r timeout).1.world.database held := by
  have hends := Hall.command_ends (ports e) h r timeout
  generalize h.command (ports e) r timeout = out at hends
  cases hends with
  | replied hunder => exact (follows_of_underway h0 hunder).sound
  | broken hunder => exact (follows_of_underway h0 hunder).sound
  | dropped hunder hc _ => exact (follows_of_underway h0 hunder).served hc

/-! ## Deeds -/

/-- **Every deed is sound.** -/
theorem Sound.performed {h : Hall (Site S)} {log : List Note}
    (h0 : Sound e h.world.database (holding log)) (deed : Deed) :
    Sound e (perform e h deed).1.world.database (holding (log ++ [(perform e h deed).2])) := by
  have hlog : holding (log ++ [(perform e h deed).2]) =
      fun room => hold room (holding log room) (perform e h deed).2 :=
    funext fun room => holding_concat _ _ _
  rw [hlog]
  cases deed with
  | register room => exact h0.registered room _ _
  | deactivate room => exact h0.deactivated room
  | remove room => exact h0.removed room
  | forget room => exact h0.forgotten room
  | command r timeout => exact h0.commanded r timeout
  | wait ms => exact h0

/-- A run of deeds is sound. -/
theorem sound_performAll {h : Hall (Site S)} (h0 : Sound e h.world.database fun _ => none)
    (deeds : List Deed) :
    Sound e (performAll e h deeds).1.world.database (holding (performAll e h deeds).2) := by
  have hrun : ∀ (deeds : List Deed) (done : Hall (Site S) × List Note),
      Sound e done.1.world.database (holding done.2) →
      Sound e (deeds.foldl (fun done deed => ((perform e done.1 deed).1,
        done.2 ++ [(perform e done.1 deed).2])) done).1.world.database
        (holding (deeds.foldl (fun done deed => ((perform e done.1 deed).1,
        done.2 ++ [(perform e done.1 deed).2])) done).2) := by
    intro deeds
    induction deeds with
    | nil => intro done hdone; exact hdone
    | cons deed deeds ih => intro done hdone; exact ih _ (hdone.performed deed)
  exact hrun deeds (h, []) h0

/-! ## What can be read -/

/-- **The history of a site can be read**, as far as rooms hold keys after a
log. -/
structure Readable (e : Equipment S) (h : Hall (Site S)) (log : List Note) : Prop where
  /-- The key of a room is found exactly while the room is active. -/
  found : ∀ room, ((ports e).lookupKey room h.world).2 =
    .ok (((holding log room).filter Holding.active).map Holding.key)
  /-- The key is stored as long as the room is registered, active or not. -/
  kept : ∀ room, (h.world.database.row? room).map (fun row => Database.keyOf room row.key) =
    (holding log room).map fun k => .ok k.key
  /-- Every record opens under the key its room holds. -/
  opens : ∀ room content, content ∈ h.world.database.contents room →
    ∃ k text, holding log room = some k ∧ (ports e).readable k.key content = some text
  /-- A load under the key that a room holds skips nothing. -/
  loads : ∀ room k, holding log room = some k →
    (h.window (ports e) room k.key).2.recordsSkipped = 0

/-- Within these bounds, whatever is stored is readable. -/
theorem Sound.readable {h : Hall (Site S)} {log : List Note}
    (hh : Sound e h.world.database (holding log)) : Readable e h log where
  found room := hh.lookupKey room
  kept room := by
    cases hk : holding log room with
    | none => rw [hh.absent room hk]; rfl
    | some k =>
      obtain ⟨createdAt, hrow⟩ := hh.present room k hk
      rw [hrow]
      simp only [Option.map_some, Database.keyOf_encode]
  opens := hh.opens
  loads room k hk := by
    refine Hall.recordsSkipped_window fun listed hlist content hc => ?_
    obtain ⟨k', text, hk', htext⟩ := hh.opens room content (Database.mem_of_listRecords hlist hc)
    obtain rfl : k = k' := Option.some.inj (hk.symm.trans hk')
    rw [htext]
    rfl

/-- **Stored history stays readable.** For every sequence of deeds from an empty
database: after it, and wherever a command that runs next has come, the keys
that are found are those of the log, every stored record opens under the key
of its room, and a load, that of the command too, skips nothing. -/
theorem readable_of_deeds (e : Equipment S) (s : Settings) (catalog : Catalog) (server : S)
    (draws now : Nat) (deeds : List Deed) :
    let done := performAll e ⟨.ofSettings s catalog, ⟨.empty, server, draws⟩, now⟩ deeds
    Readable e done.1 done.2 ∧
      ∀ r h stage, Hall.Underway (ports e) done.1 r h stage → Readable e h done.2 ∧
        ∀ key, stage.key? = some key → (h.window (ports e) r.room key).2.recordsSkipped = 0 := by
  intro done
  have hsound : Sound e done.1.world.database (holding done.2) :=
    sound_performAll (sound_empty e) deeds
  refine ⟨hsound.readable, fun r h stage hunder => ?_⟩
  have hfollows := follows_of_underway hsound hunder
  refine ⟨hfollows.sound.readable, fun key hkey => ?_⟩
  obtain ⟨k, hk, rfl⟩ := hfollows.keyed key hkey
  exact hfollows.sound.readable.loads r.room k hk

/-! ## A run with a record -/

/-- A site whose model server has one word for everything, and whose draws count up,
each from its own number. -/
def rainy : Equipment Unit where
  access := ⟨{}, none, none⟩
  send _ server := (server, 0, ScriptedServer.answerOf "model" [some "Rain."])
  random draw position := UInt8.ofNat (draw + position)

/-- The ports of the rainy site, with the word in place of the answer that is read as it. -/
def rainyPorts : Ports (Site Unit) :=
  { ports rainy with invoke := fun _ _ _ _ w => (w, 0, .ok (.answer "Rain.")) }

theorem ports_rainy : ports rainy = rainyPorts := by
  have houtput : Completion.output (ScriptedServer.answerOf "model" [some "Rain."]) =
      .ok (.answer "Rain.") := by
    rw [Completion.output, ScriptedServer.text?_answerOf _ (by decide)]
    decide +kernel
  have hinvoke : (ports rainy).invoke = rainyPorts.invoke := by
    funext agent task context input w
    simp only [ports, ask, rainy, houtput, rainyPorts]
  exact congrArg (fun invoke => { ports rainy with invoke := invoke }) hinvoke

/-- The hall of the site when a command has been answered in a registered room. -/
def rained : Hall (Site Unit) :=
  ((perform rainy ⟨.ofSettings {} .small, ⟨.empty, (), 0⟩, 0⟩ (.register "lobby")).1.command
    rainyPorts (.poem "lobby" "rain") none).1

/-- A command that is let in, and finds its key, comes to the load over the database
and the memory settings that it began with. -/
theorem exists_loading {h₀ : Hall (Site S)} {r : Request} {agent : AgentSpec} {task : TaskSpec}
    {key : RoomKey} (hin : h₀.LetIn r agent task)
    (hkey : ((ports e).lookupKey r.room h₀.world).2 = .ok (some key)) :
    ∃ h, Hall.Underway (ports e) h₀ r h (.loading agent task key .reading) ∧
      h.desk.memory = h₀.desk.memory ∧ h.world = h₀.world := by
  have hstart := Hall.start_of_letIn hin
  refine ⟨_, .entered (congrArg Prod.snd hstart) hkey, ?_, rfl⟩
  rw [hstart]
  rfl

/-- A room is registered, a command stores a record in it, and it is deactivated and
registered again. It keeps the key of the first draw, and a command that has found
this key loads the record. -/
theorem readable_when_registered_again :
    let r := Request.poem "lobby" "snow"
    let deeds := [.register "lobby", .command (.poem "lobby" "rain") none, .deactivate "lobby",
      .register "lobby"]
    let done := performAll rainy ⟨.ofSettings {} .small, ⟨.empty, (), 0⟩, 0⟩ deeds
    (done.1.world.database.contents r.room).length = 1 ∧
      ((ports rainy).lookupKey r.room done.1.world).2 = .ok (some (rainy.key 0)) ∧
      ∃ h stage, Hall.Underway (ports rainy) done.1 r h stage ∧
        stage.key? = some (rainy.key 0) ∧
        (h.window (ports rainy) r.room (rainy.key 0)).2.recordsLoaded = 1 ∧
        (h.window (ports rainy) r.room (rainy.key 0)).2.recordsSkipped = 0 := by
  intro r deeds done
  obtain ⟨hreadable, hunderway⟩ := readable_of_deeds rainy {} .small () 0 0 deeds
  have hdone : done.1 =
      (perform rainy (perform rainy rained (.deactivate "lobby")).1 (.register "lobby")).1 := by
    refine (fst_performAll rainy _ deeds).trans ?_
    -- deed by deed: to compare the two by definition is to run the command
    rw [List.foldl_cons, List.foldl_cons, List.foldl_cons, List.foldl_cons, List.foldl_nil,
      perform_command, ports_rainy, rained]
  have hstored : (done.1.world.database.contents r.room).length = 1 := by
    rw [hdone]
    decide +kernel
  have hheld : holding done.2 r.room = some ⟨rainy.key 0, true⟩ := rfl
  have hfound : ((ports rainy).lookupKey r.room done.1.world).2 =
      .ok (some (rainy.key 0)) := by
    rw [hreadable.found r.room, hheld]
    rfl
  have hcatalog : done.1.desk.catalog = .small := by
    have hrained : rained.desk.catalog = .small :=
      (Hall.command_course_none rainyPorts _ _).catalog
    rw [hdone]
    exact hrained
  have hmemory : done.1.desk.memory = {} := by
    rw [hdone]
    decide +kernel
  have hin : done.1.LetIn r .writer .poem :=
    ⟨by rw [hdone]; decide +kernel, by rw [hdone]; decide +kernel, by rw [hcatalog]; rfl,
      by rw [hcatalog]; rfl⟩
  obtain ⟨h, hentered, hdesk, hworld⟩ := exists_loading hin hfound
  have hskipped := (hunderway r h _ hentered).2 _ rfl
  refine ⟨hstored, hfound, h, _, hentered, rfl, ?_, hskipped⟩
  have hserving : done.1.world.database.Serving :=
    (sound_performAll (sound_empty rainy) deeds).serving
  have hlisted : ((ports rainy).listRecords r.room h.desk.memory.maxRecords h.world).2 =
      .ok (done.1.world.database.contents r.room) := by
    have hlists : ∀ limit w, ((ports rainy).listRecords r.room limit w).2 =
        w.database.listRecords r.room limit := fun _ _ => rfl
    rw [hdesk, hmemory, hworld, hlists]
    exact Database.listRecords_all hserving (by rw [hstored]; decide)
  have hcounted : (h.window (ports rainy) r.room (rainy.key 0)).2.recordsLoaded +
      (h.window (ports rainy) r.room (rainy.key 0)).2.recordsSkipped =
        (done.1.world.database.contents r.room).length := Hall.loaded_add_skipped hlisted
  rw [hskipped, hstored] at hcounted
  exact hcounted

end Site

end Colloquy
