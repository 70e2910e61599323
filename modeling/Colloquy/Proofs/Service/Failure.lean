import Colloquy.Service.Handler
/-!
# Requests that fail

A request that is answered with an error has changed nothing: neither what the
desk keeps, which is the cache, the sessions, the limiter and the metrics, nor
a table of the database. What a statement answers tells whether it has written
(`Database.Spares`). A work is `Harmless` when nothing is left of it behind a
fault, and the whole service is shown to be so route by route, whichever of a
request's statements fail. Registering is the one work of two statements that
no transaction holds together: the first has written nothing when the second
is sent.
-/

namespace Colloquy

variable {S α : Type}

/-! ## Statements -/

namespace Database

/-- An answer that is a failure. -/
def Failed (answer : Except StorageError α) : Prop := ∃ cause, answer = .error cause

/-- A statement leaves the database as it was whenever its answer is of a
kind. -/
def Spares (kind : Except StorageError α → Prop)
    (statement : Database → Database × Except StorageError α) : Prop :=
  ∀ db, kind (statement db).2 → (statement db).1 = db

/-- A question writes nothing. -/
theorem question_spares (question : Database → Except StorageError α) :
    Spares (fun _ => True) fun db => (db, question db) :=
  fun _ _ => rfl

/-- Only an insertion that says so has stored a row. -/
theorem insertRoom_spares (room : String) (row : RoomRow) :
    Spares (· ≠ .ok true) (insertRoom room row) := by
  intro db hanswer
  unfold insertRoom at hanswer ⊢
  cases htable : table db.canWrite roomTable db.rooms with
  | error e => rfl
  | ok rooms =>
    rw [htable] at hanswer
    cases hfind : Named.find? room rooms with
    | none => exact absurd (by simp only [hfind]) hanswer
    | some row' => simp only [hfind]

/-- A statement that fails has written nothing. -/
theorem setActive_spares (room : String) (active : Bool) :
    Spares Failed (setActive room active) := by
  rintro db ⟨e, hanswer⟩
  unfold setActive at hanswer ⊢
  cases htable : table db.canWrite roomTable db.rooms with
  | error e => rfl
  | ok rooms =>
    rw [htable] at hanswer
    cases hfind : Named.find? room rooms with
    | none => simp only [hfind]
    | some row => simp only [hfind, reduceCtorEq] at hanswer

theorem deleteRecords_spares (room : String) :
    Spares Failed (deleteRecords room) := by
  rintro db ⟨e, hanswer⟩
  unfold deleteRecords at hanswer ⊢
  cases htable : table db.canWrite recordTable db.records with
  | error e => rfl
  | ok rows => simp only [htable, reduceCtorEq] at hanswer

/-- **A removal that does not say what it deleted has deleted nothing**,
whichever of its steps fails. -/
theorem removeRoomWith_spares (fault : RemovalStep → Option StorageError) (room : String) :
    Spares (fun answer => ∀ count, answer ≠ .ok (some count)) (removeRoomWith fault room) := by
  intro db hanswer
  unfold removeRoomWith at hanswer ⊢
  cases hdraft : removalDraft fault room db with
  | error e => rfl
  | ok draft =>
    rw [hdraft] at hanswer
    cases draft with
    | none => rfl
    | some kept => exact absurd rfl (hanswer kept.2)

end Database

namespace Service

namespace Handling

/-- What a statement spares, it spares when it is sent, and one that is not
carried out spares all. -/
theorem send_spares {kind : Except StorageError α → Prop}
    {statement : Database → Database × Except StorageError α}
    (hspares : Database.Spares kind statement) (o : Outage) (w : Handling S)
    (hanswer : kind (send o (Site.change statement) w).2) :
    (send o (Site.change statement) w).1.site.database = w.site.database := by
  unfold send at hanswer ⊢
  cases hout : o w.sent with
  | some e => rfl
  | none =>
    rw [hout] at hanswer
    exact hspares w.site.database hanswer

/-- **A registration that fails leaves the tables as they were.** -/
theorem registerRoom_failed (o : Outage) (e : Equipment S) (now : Nat) (room : String)
    (w : Handling S) {cause : StorageError}
    (hfailed : (registerRoom o e now room w).2 = .error cause) :
    (registerRoom o e now room w).1.site.database = w.site.database := by
  have hinsert := send_spares
    (Database.insertRoom_spares room (Database.freshRow (e.key w.site.draws) (e.moment now))) o
    { w with site := w.site.draw }
  have hactivate := send_spares (S := S) (Database.setActive_spares room true) o
  unfold registerRoom at hfailed ⊢
  rcases hsent : send o (Site.change (Database.insertRoom room
    (Database.freshRow (e.key w.site.draws) (e.moment now)))) { w with site := w.site.draw }
    with ⟨w', answer⟩
  simp only [hsent] at hinsert hfailed ⊢
  cases answer with
  | error e' => exact hinsert (by simp)
  | ok created =>
    cases created with
    | true => cases hfailed
    | false =>
      -- the room has a row, so nothing is written yet when the second statement fails
      have hrows : w'.site.database = w.site.database := hinsert (by simp)
      rcases hsent' : send o (Site.change (Database.setActive room true)) w' with ⟨w'', answer'⟩
      have hsecond := hactivate w'
      simp only [hsent'] at hsecond hfailed ⊢
      cases answer' with
      | error e' => exact (hsecond ⟨e', rfl⟩).trans hrows
      | ok activated => cases hfailed

/-- **A removal that does not say what it deleted leaves the tables as they
were.** -/
theorem removeRoom_spares (o : Outage) (room : String) (w : Handling S)
    (hanswer : ∀ count, (removeRoom o room w).2 ≠ .ok (some count)) :
    (removeRoom o room w).1.site.database = w.site.database :=
  Database.removeRoomWith_spares _ room w.site.database hanswer

end Handling

/-! ## Works -/

/-- Two states with the same desk and the same tables. -/
def Unchanged (h h' : Attending S) : Prop :=
  h'.desk = h.desk ∧ h'.world.site.database = h.world.site.database

/-- A work of which nothing is left when it comes to a fault. -/
def Harmless (work : Attending S → Attending S × Result) : Prop :=
  ∀ h f, (work h).2 = .fault f → Unchanged h (work h).1

/-- A fault from storage is a failure, or lies in what storage said. -/
theorem Result.ofStorage_fault {f : α → Result} {answer : Except StorageError α} {fault : Fault}
    (h : Result.ofStorage f answer = .fault fault) :
    (∃ cause, answer = .error cause) ∨ ∃ a, answer = .ok a ∧ f a = .fault fault := by
  cases answer with
  | error cause => exact .inl ⟨cause, rfl⟩
  | ok a => exact .inr ⟨a, rfl, h⟩

/-- The end of a command is never a fault. -/
theorem Result.ofOutcome_ne_fault (outcome : Outcome) (fault : Fault) :
    Result.ofOutcome outcome ≠ .fault fault := by
  cases outcome <;> simp [ofOutcome]

variable (o : Outage) (e : Equipment S)

/-- A message is refused before the desk hears of it, or answered with data. -/
theorem postMessage_harmless (room : String) (m : PostedMessage) :
    Harmless fun h => postMessage o e h room m := by
  intro h fault hfault
  simp only [postMessage] at hfault ⊢
  cases hfield : requireField "user_id" m.user with
  | error f => exact ⟨rfl, rfl⟩
  | ok _ =>
    rw [hfield] at hfault
    rcases hmessage : h.message (Handling.ports o e) m.user room m.body none with ⟨h', _ | outcome⟩
    · simp [hmessage] at hfault
    · simp only [hmessage] at hfault
      exact absurd hfault (Result.ofOutcome_ne_fault outcome fault)

theorem postCommand_harmless (c : PostedCommand) : Harmless fun h => postCommand o e h c := by
  intro h fault hfault
  simp only [postCommand] at hfault ⊢
  split at hfault
  · exact ⟨rfl, rfl⟩
  · exact absurd hfault (Result.ofOutcome_ne_fault _ fault)

theorem registerRoom_harmless (r : PostedRoom) : Harmless fun h => registerRoom o e h r := by
  intro h fault hfault
  simp only [registerRoom] at hfault ⊢
  cases hfield : requireField "room_id" r.room with
  | error f => exact ⟨rfl, rfl⟩
  | ok _ =>
    rw [hfield] at hfault
    rcases Result.ofStorage_fault hfault with ⟨cause, hfailed⟩ | ⟨created, -, hdata⟩
    · exact ⟨rfl, Handling.registerRoom_failed o e h.now r.room h.world hfailed⟩
    · cases hdata

/-- A room that is not there is found missing behind the first deletion, of
which the transaction leaves nothing. -/
theorem removeRoom_harmless (room : String) :
    Harmless (S := S) fun h => removeRoom o h room := by
  intro h fault hfault
  refine ⟨rfl, Handling.removeRoom_spares o room h.world fun count hcount => ?_⟩
  rcases Result.ofStorage_fault hfault with ⟨cause, hfailed⟩ | ⟨removed, hremoved, hdata⟩
  · cases hfailed.symm.trans hcount
  · obtain rfl : removed = some count := Except.ok.inj (hremoved.symm.trans hcount)
    cases hdata

theorem clearMemory_harmless (room : String) : Harmless fun h => clearMemory o e h room := by
  intro h fault hfault
  rcases Result.ofStorage_fault hfault with ⟨cause, hfailed⟩ | ⟨count, -, hdata⟩
  · exact ⟨rfl, Handling.send_spares (Database.deleteRecords_spares room) o h.world ⟨cause, hfailed⟩⟩
  · cases hdata

theorem listRooms_harmless : Harmless (S := S) fun h => listRooms o h := by
  intro h fault _
  exact ⟨rfl, Handling.send_spares (Database.question_spares Database.listRooms) o h.world trivial⟩

/-- A work that always has data is harmless. -/
theorem harmless_of_data {work : Attending S → Attending S × Result} {data : Attending S → Json}
    (hwork : ∀ h, (work h).2 = .data (data h)) : Harmless work := by
  intro h fault hfault
  rw [hwork h] at hfault
  cases hfault

/-! ## Responses -/

/-- A response of another status than 200 is given in an unchanged state. -/
def Spared (h : Attending S) (answered : Attending S × Option HttpResponse) : Prop :=
  ∀ response, answered.2 = some response → response.status ≠ 200 → Unchanged h answered.1

/-- A refusal with no work done at all. -/
theorem spared_self (h : Attending S) (response : Option HttpResponse) :
    Spared h (h, response) :=
  fun _ _ _ => ⟨rfl, rfl⟩

/-- **A harmless work is performed harmlessly**: of its results only a fault is
answered with another status than 200. -/
theorem perform_spared (h : Attending S) {work : Attending S → Attending S × Result}
    (hwork : Harmless work) : Spared h (perform e h work) := by
  intro response hresponse hstatus
  simp only [perform] at hresponse ⊢
  have hid : Unchanged h (identify e h).1 := ⟨rfl, rfl⟩
  cases hresult : (work (identify e h).1).2 with
  | fault fault =>
    obtain ⟨hdesk, hdatabase⟩ := hwork _ fault hresult
    exact ⟨hdesk.trans hid.1, hdatabase.trans hid.2⟩
  | data j =>
    rw [hresult] at hresponse
    obtain rfl := Option.some.inj hresponse
    exact absurd rfl hstatus
  | broken =>
    rw [hresult] at hresponse
    cases hresponse

theorem performWith_spared (h : Attending S) (r : HttpRequest) (shape : Shape) (ofJson : Json → α)
    {work : Attending S → α → Attending S × Result} (hwork : ∀ a, Harmless fun h => work h a) :
    Spared h (performWith e h r shape ofJson work) := by
  unfold performWith
  cases readBody shape ofJson r with
  | error response => exact spared_self h _
  | ok posted => exact perform_spared e h (hwork posted)

/-- **Every route spares the state behind an error.** -/
theorem serveRoute_spared (h : Attending S) (r : HttpRequest) (verb : Verb) (route : Route) :
    Spared h (serveRoute o e h r verb route) := by
  cases route with
  | health => exact spared_self h _
  | commands => exact performWith_spared e h r _ _ fun c => postCommand_harmless o e c
  | rooms =>
    by_cases hverb : verb = .get
    · simp only [serveRoute, if_pos hverb]
      exact perform_spared e h (listRooms_harmless o)
    · simp only [serveRoute, if_neg hverb]
      exact performWith_spared e h r _ _ fun room => registerRoom_harmless o e room
  | messages name => exact performWith_spared e h r _ _ fun m => postMessage_harmless o e name m
  | room name => exact perform_spared e h (removeRoom_harmless o name)
  | memory name => exact perform_spared e h (clearMemory_harmless o e name)
  | session name user => exact perform_spared e h (harmless_of_data fun _ => rfl)
  | metrics => exact perform_spared e h (harmless_of_data fun _ => rfl)
  | catalog => exact perform_spared e h (harmless_of_data fun _ => rfl)
  | cache => exact perform_spared e h (harmless_of_data fun _ => rfl)

/-- A request that no route takes does no work. -/
theorem answer_spared (h : Attending S) (r : HttpRequest) : Spared h (answer o e h r) := by
  simp only [answer]
  split
  · exact spared_self h _
  · split
    · split
      · split
        · exact spared_self h _
        · exact serveRoute_spared o e h r _ _
      · exact spared_self h _
    · exact spared_self h _

/-- **A request that fails is a request that was not made.** Take any state, any
request and any outage. When the response has an error's status, the desk is as
it was, with its cache, sessions, limiter and metrics, and so are both tables of
the database. -/
theorem handleDuring_failed (h : State S) (r : HttpRequest) {response : HttpResponse}
    (hresponse : (handleDuring o e h r).2 = some response) (hfailed : 400 ≤ response.status) :
    (handleDuring o e h r).1.desk = h.desk ∧
      (handleDuring o e h r).1.world.database = h.world.database := by
  simp only [handleDuring, Option.map_eq_some_iff] at hresponse
  obtain ⟨inner, hinner, rfl⟩ := hresponse
  refine answer_spared o e (enter h) r inner hinner fun hstatus => ?_
  -- neither the header nor the loss of the body touches the status
  have hkeep : (if r.method = "HEAD" then
      (inner.adding "access-control-allow-origin" "*").bodiless
      else inner.adding "access-control-allow-origin" "*").status = inner.status := by
    split <;> rfl
  rw [hkeep, hstatus] at hfailed
  omega

/-- A service with a room and a record in it, whose model server refuses all. -/
def lobbyOnly : Equipment Unit × State Unit :=
  let row : Database.RoomRow := ⟨.text "key", .int 1, .text "2025-01-01T00:00:00+00:00"⟩
  (⟨⟨{}, none, none⟩, fun _ server => (server, 0, .answered 503 []), fun _ _ => 7, 0⟩,
    ⟨.ofSettings {} .empty, ⟨⟨some [("lobby", row)], some [⟨"lobby", [1]⟩], true, true⟩, (), 0⟩, 0⟩)

/-- The request for the removal of its room while a statement with a number
fails, and what comes of it. -/
def lobbyRemoved (failing : Nat) : State Unit × Option HttpResponse :=
  handleDuring (fun n => if n = failing then some .connection else none) lobbyOnly.1 lobbyOnly.2
    ⟨"DELETE", "/api/v1/rooms/lobby", [], []⟩

/-- Both deletions are carried out and the commit fails: the status is 500, and
by the law the room is there with its record. -/
theorem kept_without_commit :
    (lobbyRemoved 3).2.map HttpResponse.status = some 500 ∧
      (lobbyRemoved 3).1.desk = lobbyOnly.2.desk ∧
      (lobbyRemoved 3).1.world.database = lobbyOnly.2.world.database := by
  have hstatus : (lobbyRemoved 3).2.map HttpResponse.status = some 500 := by decide +kernel
  obtain ⟨response, hresponse, h500⟩ := Option.map_eq_some_iff.1 hstatus
  have hfailed : 400 ≤ response.status := by omega
  refine ⟨hstatus, ?_⟩
  rw [lobbyRemoved] at hresponse ⊢
  exact handleDuring_failed _ _ _ _ hresponse hfailed

end Service

end Colloquy
