import Colloquy.Model.Script
import Colloquy.Proofs.Dispatch.Floor
import Colloquy.Proofs.Site.Readability
/-!
# Records of rooms that are removed

Commands and the upkeep of rooms interleave at a site. A command looks up the
key of its room early and writes its exchange late, and the write does not
look at the room again; so a command that holds the key while the room is
removed leaves a record that belongs to no room. `orphans_of_removal` says
that this is the only way: the records of a room that is not registered are
at most as many as the commands that held its key at a removal.
-/

namespace Colloquy

/-- Whether a command may still write a record: it holds a key, or is about to
get one, and its write has not been carried out. -/
def Ticket.mayWrite (t : Ticket) : Bool :=
  match t.stage, t.answer with
  | .lookup _ _, some (.key (.ok (some _))) => true
  | .loading _ _ _ _, _ => true
  | .asking _ _ _ _ _ _, _ => true
  | .saving _ (.writing _), some (.written (.ok _)) => false
  | .saving _ (.writing _), _ => true
  | .saving _ (.reconnecting _), some (.written (.error _)) => false
  | .saving _ (.reconnecting _), _ => true
  | .saving _ (.writingAgain _), some (.written _) => false
  | .saving _ (.writingAgain _), _ => true
  | _, _ => false

/-- A command that may still write a record of a room, as a number. -/
def Ticket.claim (room : String) (t : Ticket) : Nat :=
  if t.request.room = room ∧ t.mayWrite = true then 1 else 0

namespace Site

variable {S : Type}

/-- A statement of the upkeep of rooms. To register a room is an insertion and,
where it finds the room, an activation. -/
inductive Upkeep where
  | insert (room : String)
  | activate (room : String)
  | deactivate (room : String)
  | remove (room : String)
  | forget (room : String)

/-- What happens at a site: a move of the commands, or a statement of the
upkeep. -/
inductive Event where
  | move (m : Move)
  | upkeep (u : Upkeep)

/-- The site behind a statement. -/
def keepUp (e : Equipment S) (now : Nat) (w : Site S) : Upkeep → Site S
  | .insert room =>
    (change (Database.insertRoom room (Database.freshRow (e.key w.draws) (e.moment now))) w.draw).1
  | .activate room => (change (Database.setActive room true) w).1
  | .deactivate room => (change (Database.deactivateRoom room) w).1
  | .remove room => (change (Database.removeRoom room) w).1
  | .forget room => (change (Database.deleteRecords room) w).1

/-- The floor behind an event. -/
def happen (e : Equipment S) (f : Floor (Site S)) : Event → Floor (Site S)
  | .move m => f.move (ports e) m
  | .upkeep u => { f with hall := { f.hall with world := keepUp e f.hall.now f.hall.world u } }

/-- The floor behind events one after another. -/
def happenAll (e : Equipment S) (f : Floor (Site S)) (events : List Event) : Floor (Site S) :=
  events.foldl (happen e) f

theorem happenAll_concat (e : Equipment S) (f : Floor (Site S)) (events : List Event)
    (event : Event) :
    happenAll e f (events ++ [event]) = happen e (happenAll e f events) event := by
  simp only [happenAll, List.foldl_append, List.foldl_cons, List.foldl_nil]

/-- The database of a floor. -/
def databaseOf (f : Floor (Site S)) : Database := f.hall.world.database

/-- **The claims on a room's records**: those that are stored, and those that
commands may still write. -/
def claims (room : String) (f : Floor (Site S)) : Nat :=
  ((databaseOf f).contents room).length + Floor.total (Ticket.claim room) f.tickets

variable {e : Equipment S} {room : String}

/-! ## Commands -/

/-- A command that has lost a write has no claim more. -/
theorem claim_le {r : Request} {stage stage' : Stage} {answer answer' : Option Answer}
    (h : Ticket.mayWrite ⟨r, stage, answer⟩ = true → Ticket.mayWrite ⟨r, stage', answer'⟩ = true) :
    Ticket.claim room ⟨r, stage, answer⟩ ≤ Ticket.claim room ⟨r, stage', answer'⟩ := by
  simp only [Ticket.claim]
  by_cases hbefore : r.room = room ∧ Ticket.mayWrite ⟨r, stage, answer⟩ = true
  · simp only [if_pos hbefore, if_pos (⟨hbefore.1, h hbefore.2⟩ : r.room = room ∧ _), Nat.le_refl]
  · simp only [if_neg hbefore, Nat.zero_le]

/-- A write that is carried out is a record more and a claim less. -/
theorem claims_appended {db : Database} (hdb : db.Serving) (r : Request) (record : List UInt8)
    {stage : Stage} {answer : Option Answer} (hbefore : Ticket.mayWrite ⟨r, stage, none⟩ = true)
    (hafter : Ticket.mayWrite ⟨r, stage, answer⟩ = false) :
    ((db.appendRecord r.room record).1.contents room).length +
        Ticket.claim room ⟨r, stage, answer⟩ ≤
      (db.contents room).length + Ticket.claim room ⟨r, stage, none⟩ := by
  obtain ⟨-, -, -, hcontents⟩ := Database.appendRecord_serving hdb r.room record
  rw [hcontents]
  simp only [shelve, Ticket.claim, hbefore, hafter, Bool.false_eq_true, and_false, and_true,
    if_false]
  by_cases hroom : room = r.room
  · have hone : (db.contents room ++ [record]).length = (db.contents room).length + 1 := by simp
    simp only [if_pos hroom, if_pos hroom.symm]
    omega
  · simp only [if_neg hroom, if_neg (Ne.symm hroom), Nat.le_refl]

/-- **A call that is served writes what its command might write**, and hands
out no key of a room without a row. -/
theorem claims_served (e : Equipment S) {room : String} {w : Site S} (hw : w.database.Serving)
    (hrow : w.database.row? room = none)
    {d : Desk} {r : Request} {stage : Stage} {call : Call} (hc : stage.call? d r = some call) :
    (((ports e).serve w call).1.database.contents room).length +
        Ticket.claim room ⟨r, stage, some ((ports e).serve w call).2.2⟩ ≤
      (w.database.contents room).length + Ticket.claim room ⟨r, stage, none⟩ := by
  -- a command that reads with a key in hand has its claim already
  have hread : ∀ {answer}, ((ports e).serve w call).1.database = w.database →
      Ticket.mayWrite ⟨r, stage, none⟩ = true →
      (((ports e).serve w call).1.database.contents room).length +
          Ticket.claim room ⟨r, stage, some answer⟩ ≤
        (w.database.contents room).length + Ticket.claim room ⟨r, stage, none⟩ := by
    intro answer hsame hmay
    rw [hsame]
    exact Nat.add_le_add_left (claim_le fun _ => hmay) _
  cases Stage.calls_of_call hc with
  | lookup =>
    by_cases hroom : r.room = room
    · have hnone : w.database.lookupKey r.room = .ok none := by
        rw [hroom, Database.lookupKey_serving hw, hrow]
      refine Nat.add_le_add_left (claim_le fun hmay => ?_) _
      simp only [Ports.serve, ports, query, hnone] at hmay
      cases hmay
    · simp only [Ticket.claim, hroom, false_and, if_false]
      exact Nat.le_refl _
  | read => exact hread rfl rfl
  | condense => exact hread rfl rfl
  | attempt => exact hread rfl rfl
  | rest => exact hread rfl rfl
  | @write text record =>
    obtain ⟨hwritten, -⟩ := Database.appendRecord_serving hw r.room record
    refine claims_appended hw r record rfl ?_
    simp only [Ports.serve, ports, change, hwritten, Ticket.mayWrite]
  | reconnect => exact hread rfl rfl
  | @writeAgain text record => exact claims_appended hw r record rfl rfl

/-- **A step behind an answer gives its command no claim more.** -/
theorem mayWrite_of_next {d : Desk} {w : Site S} {now : Nat} {r : Request} {stage : Stage}
    {answer : Answer} {next : Desk × Site S × Stage}
    (h : Stage.Next (ports e) d w now r stage answer next)
    (hnext : Ticket.mayWrite ⟨r, next.2.2, none⟩ = true) :
    Ticket.mayWrite ⟨r, stage, some answer⟩ = true := by
  cases h with
  | stray hstray =>
    cases stage with
    | saving text save =>
      cases save with
      | settled stored => cases hnext
      | writing record => cases answer <;> first | rfl | cases hstray
      | reconnecting record => cases answer <;> first | rfl | cases hstray
      | writingAgain record => cases answer <;> first | rfl | cases hstray
    | loading agent task key load => rfl
    | asking agent task key context since run => rfl
    | lookup agent task => cases hnext
    | finished reply => cases hnext
    | broken => cases hnext
  | entered => rfl
  | condensing => rfl
  | read => rfl
  | condensed => rfl
  | unanswered => rfl
  | answered => rfl
  | rested => rfl
  | unwritten => rfl
  | reconnected => rfl
  | registryFailed => cases hnext
  | unregistered => cases hnext
  | failed => cases hnext
  | saved => cases hnext

/-- A call leaves the rooms as they are. -/
theorem rows_served {w : Site S} (hw : w.database.Serving) (call : Call) :
    ((ports e).serve w call).1.database.Serving ∧
      ((ports e).serve w call).1.database.row? = w.database.row? := by
  rw [serve_database]
  split
  · rename_i room record
    obtain ⟨-, hserving, hrows, -⟩ := Database.appendRecord_serving hw room record
    exact ⟨hserving, hrows⟩
  · exact ⟨hw, rfl⟩

variable {f g : Floor (Site S)}

/-- A move of the commands leaves the rooms as they are. -/
theorem rows_step (hf : (databaseOf f).Serving) (hstep : Floor.Step (ports e) f g) :
    (databaseOf g).Serving ∧ (databaseOf g).row? = (databaseOf f).row? := by
  cases hstep with
  | idle => exact ⟨hf, rfl⟩
  | arrived => exact ⟨hf, rfl⟩
  | waited => exact ⟨hf, rfl⟩
  | @served r stage call before after htickets hc => exact rows_served hf call
  | resumed htickets hnext =>
    have hsame := next_database hnext
    simp only [databaseOf, hsame]
    exact ⟨hf, trivial⟩

/-- **The claims on a room without a row do not grow** with a move of the
commands. -/
theorem claims_step (hf : (databaseOf f).Serving) (hrow : (databaseOf f).row? room = none)
    (hstep : Floor.Step (ports e) f g) : claims room g ≤ claims room f := by
  cases hstep with
  | idle => exact Nat.le_refl _
  | waited => exact Nat.le_refl _
  | @arrived r next hnext =>
    -- a command that comes has no key yet
    have hnone : Ticket.mayWrite ⟨r, next.2, none⟩ = false := by
      cases hnext with
      | unknown hwhy => rfl
      | _ => rfl
    rw [claims, claims, Floor.total_concat, Ticket.claim, hnone]
    simp [databaseOf]
  | @served r stage call before after htickets hc =>
    have hserved := claims_served e hf hrow hc
    simp only [claims, databaseOf, htickets, Floor.total_split] at hserved ⊢
    omega
  | @resumed r stage answer next before after htickets hnext =>
    have hsame := next_database hnext
    have hfewer : Ticket.claim room ⟨r, next.2.2, none⟩ ≤
        Ticket.claim room ⟨r, stage, some answer⟩ := claim_le (mayWrite_of_next hnext)
    simp only [claims, databaseOf, htickets, Floor.total_split, hsame]
    omega

/-! ## Upkeep -/

/-- A statement is executed. -/
theorem keepUp_serving {w : Site S} (hw : w.database.Serving) (now : Nat) (u : Upkeep) :
    (keepUp e now w u).database.Serving := by
  cases u with
  | insert room => exact (Database.insertRoom_serving hw room _).2.1
  | activate room => exact (Database.setActive_serving hw room true).2.1
  | deactivate room => exact (Database.setActive_serving hw room false).2.1
  | remove room => exact (Database.removeRoom_serving hw room).1
  | forget room => exact (Database.deleteRecords_serving hw room).1

/-- **A room keeps its row** until it is removed. -/
theorem row?_keepUp {w : Site S} (hw : w.database.Serving) (now : Nat) {u : Upkeep}
    (hu : u ≠ .remove room) (hrow : (w.database.row? room).isSome = true) :
    ((keepUp e now w u).database.row? room).isSome = true := by
  have hmarked : ∀ q active,
      ((w.database.setActive q active).1.row? room).isSome = true := by
    intro q active
    rw [(Database.setActive_serving hw q active).2.2.1]
    by_cases hq : q = room
    · subst hq
      simpa only [if_true, Option.isSome_map] using hrow
    · simpa only [if_neg hq] using hrow
  cases u with
  | insert q =>
    have hinserted := (Database.insertRoom_serving hw q
      (Database.freshRow (e.key w.draws) (e.moment now))).2.2.1
    simp only [keepUp, change, draw, hinserted]
    by_cases hq : q = room
    · simp [hq]
    · simpa only [if_neg hq] using hrow
  | activate q => exact hmarked q true
  | deactivate q => exact hmarked q false
  | remove q =>
    have hq : q ≠ room := fun heq => hu (heq ▸ rfl)
    obtain ⟨-, hsome, hnone⟩ := Database.removeRoom_serving hw q
    simp only [keepUp, change]
    cases hregistered : (w.database.row? q).isSome with
    | true =>
      rw [(hsome hregistered).1]
      simpa only [if_neg hq] using hrow
    | false => rwa [hnone hregistered]
  | forget q =>
    simp only [keepUp, change, (Database.deleteRecords_serving hw q).2.1]
    exact hrow

/-- No statement of the upkeep stores a record. -/
theorem contents_keepUp {w : Site S} (hw : w.database.Serving) (now : Nat) (u : Upkeep) :
    ((keepUp e now w u).database.contents room).length ≤ (w.database.contents room).length := by
  have hdeleted : ∀ q, (if room = q then [] else w.database.contents room).length ≤
      (w.database.contents room).length := by
    intro q
    split
    · exact Nat.zero_le _
    · exact Nat.le_refl _
  cases u with
  | insert q =>
    simp only [keepUp, change, draw, (Database.insertRoom_serving hw q _).2.2.2]
    exact Nat.le_refl _
  | activate q =>
    simp only [keepUp, change, (Database.setActive_serving hw q true).2.2.2]
    exact Nat.le_refl _
  | deactivate q =>
    simp only [keepUp, change, Database.deactivateRoom,
      (Database.setActive_serving hw q false).2.2.2]
    exact Nat.le_refl _
  | remove q =>
    obtain ⟨-, hsome, hnone⟩ := Database.removeRoom_serving hw q
    simp only [keepUp, change]
    cases hregistered : (w.database.row? q).isSome with
    | true =>
      rw [(hsome hregistered).2]
      exact hdeleted q
    | false => simp only [hnone hregistered, Nat.le_refl]
  | forget q =>
    simp only [keepUp, change, (Database.deleteRecords_serving hw q).2.2]
    exact hdeleted q

/-- **A removal leaves no record** of a room that is registered. -/
theorem contents_remove {w : Site S} (hw : w.database.Serving) (now : Nat)
    (hrow : (w.database.row? room).isSome = true) :
    (keepUp e now w (.remove room)).database.contents room = [] := by
  obtain ⟨-, hsome, -⟩ := Database.removeRoom_serving hw room
  simp only [keepUp, change, (hsome hrow).2, if_true]

/-! ## Orphans -/

/-- The commands that hold the key of a room, or are about to get it, and have
not written their exchange. -/
def holders (room : String) (f : Floor (Site S)) : Nat :=
  Floor.total (Ticket.claim room) f.tickets

/-- **What is known of a room's claims** behind events: it is registered, or no
claim was ever there, or the room was removed and no claim is newer than the
removal. -/
def Settled (e : Equipment S) (f₀ : Floor (Site S)) (room : String) (events : List Event) : Prop :=
  ((databaseOf (happenAll e f₀ events)).row? room).isSome = true ∨
    claims room (happenAll e f₀ events) = 0 ∨
    ∃ before after, events = before ++ .upkeep (.remove room) :: after ∧
      ((databaseOf (happenAll e f₀ before)).row? room).isSome = true ∧
      claims room (happenAll e f₀ events) ≤ holders room (happenAll e f₀ before)

variable {f₀ : Floor (Site S)} {events : List Event}

/-- An event that adds no claim settles nothing anew. -/
theorem Settled.of_le {event : Event} (h : Settled e f₀ room events)
    (hrow : (databaseOf (happenAll e f₀ events)).row? room = none)
    (hle : claims room (happenAll e f₀ (events ++ [event])) ≤ claims room (happenAll e f₀ events)) :
    Settled e f₀ room (events ++ [event]) := by
  rcases h with hsome | hzero | ⟨before, after, rfl, hregistered, hbound⟩
  · rw [hrow] at hsome
    cases hsome
  · exact .inr (.inl (by omega))
  · exact .inr (.inr ⟨before, after ++ [event], by simp, hregistered, Nat.le_trans hle hbound⟩)

/-- **Every event settles what it does to a room.** -/
theorem Settled.next (hserving : (databaseOf (happenAll e f₀ events)).Serving)
    (h : Settled e f₀ room events) (event : Event) :
    (databaseOf (happenAll e f₀ (events ++ [event]))).Serving ∧
      Settled e f₀ room (events ++ [event]) := by
  have hlast := happenAll_concat e f₀ events event
  cases event with
  | move m =>
    have hstep := Floor.move_step (ports e) (happenAll e f₀ events) m
    obtain ⟨hserving', hrows⟩ := rows_step hserving hstep
    refine ⟨by rw [hlast]; exact hserving', ?_⟩
    cases hrow : (databaseOf (happenAll e f₀ events)).row? room with
    | none => exact h.of_le hrow (by rw [hlast]; exact claims_step hserving hrow hstep)
    | some row =>
      refine .inl ?_
      rw [hlast]
      exact (congrArg (fun rows => (rows room).isSome) hrows).trans (by rw [hrow])
  | upkeep u =>
    refine ⟨by rw [hlast]; exact keepUp_serving hserving _ u, ?_⟩
    cases hrow : (databaseOf (happenAll e f₀ events)).row? room with
    | none =>
      refine h.of_le hrow ?_
      rw [hlast]
      exact Nat.add_le_add_right (contents_keepUp hserving _ u) _
    | some row =>
      have hsome : ((databaseOf (happenAll e f₀ events)).row? room).isSome = true := by
        rw [hrow]
        rfl
      by_cases hu : u = .remove room
      · -- the records go with the room, and what is left to claim is in hand now
        subst hu
        refine .inr (.inr ⟨events, [], rfl, hsome, ?_⟩)
        have hnone := contents_remove (e := e) hserving (happenAll e f₀ events).hall.now hsome
        rw [hlast, claims]
        simp only [databaseOf, happen] at hnone ⊢
        rw [hnone, List.length_nil, Nat.zero_add]
        exact Nat.le_refl _
      · refine .inl ?_
        rw [hlast]
        exact row?_keepUp hserving _ hu hsome

/-- **Orphans come from commands that outlast a removal.** Whatever happens at a
site, from an empty database on: a room that is not registered has no record,
or it was removed, and has at most one record for each command that held its
key then. -/
theorem orphans_of_removal (e : Equipment S) (s : Settings) (catalog : Catalog) (server : S)
    (draws now : Nat) (events : List Event) (room : String) :
    let f₀ : Floor (Site S) := ⟨⟨.ofSettings s catalog, ⟨.empty, server, draws⟩, now⟩, []⟩
    ((databaseOf (happenAll e f₀ events)).row? room).isSome = true ∨
      (databaseOf (happenAll e f₀ events)).contents room = [] ∨
      ∃ before after, events = before ++ .upkeep (.remove room) :: after ∧
        ((databaseOf (happenAll e f₀ before)).row? room).isSome = true ∧
        ((databaseOf (happenAll e f₀ events)).contents room).length ≤
          holders room (happenAll e f₀ before) := by
  intro f₀
  have hsettled : (databaseOf (happenAll e f₀ events)).Serving ∧ Settled e f₀ room events := by
    induction events using List.reverseRecOn with
    | nil => exact ⟨Database.serving_empty, .inr (.inl rfl)⟩
    | append_singleton events event ih => exact ih.2.next ih.1 event
  rcases hsettled.2 with hsome | hzero | ⟨before, after, hevents, hregistered, hbound⟩
  · exact .inl hsome
  · refine .inr (.inl (List.length_eq_zero_iff.1 ?_))
    rw [claims] at hzero
    omega
  · refine .inr (.inr ⟨before, after, hevents, hregistered, ?_⟩)
    rw [claims] at hbound
    omega

/-- Equipment with a model server that gives one answer to everything. -/
def oneAnswer : Equipment Unit where
  access := ⟨{}, none, none⟩
  send _ server := (server, 0, .answered 200
    (Text.Utf8.encode (ScriptedServer.completion (.text "model") [some "Rain."]).compact))
  random _ _ := 7

/-- **A record can outlive its room.** The room is removed while the pipeline is
asked; the command is answered, its exchange is stored, and no room has the key
to it. -/
theorem orphan_in_flight :
    let f := happenAll oneAnswer ⟨⟨.ofSettings {} .small, ⟨.empty, (), 0⟩, 0⟩, []⟩
      [.upkeep (.insert "lobby"), .move (.arrive (.poem "lobby" "rain")), .move (.serve 0),
        .move (.resume 0), .move (.serve 0), .move (.resume 0), .upkeep (.remove "lobby"),
        .move (.serve 0), .move (.resume 0), .move (.serve 0), .move (.resume 0)]
    (f.tickets.all fun t => !t.stage.isWaiting) = true ∧ f.replies.length = 1 ∧
      (databaseOf f).row? "lobby" = none ∧ ((databaseOf f).contents "lobby").length = 1 := by
  decide +kernel

end Site

end Colloquy
