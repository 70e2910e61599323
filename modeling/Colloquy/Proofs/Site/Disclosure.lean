import Colloquy.Proofs.Dispatch.Course
import Colloquy.Proofs.Dispatch.Uses
import Colloquy.Proofs.Named
import Colloquy.Proofs.Database
import Colloquy.Proofs.Room.Flaws
import Colloquy.Proofs.Site.Removal
/-!
# What a room is told of its stored key

A command that finds no key in its room ends in a reply that words the reason. When
the stored text is no key, the reason is the flaw of the text. So with two such texts
the room is told the same just when their flaws are the same (`flaws_told`). A flaw
may name a byte of the stored text, and the reply then shows the room that byte
(`byte_told`).
-/

namespace Colloquy

/-! ## Commands without a key -/

theorem Clock.wake_zero_le (now ms : Nat) : wake now 0 ≤ wake now ms := by
  unfold wake later?
  split <;> split <;> simp only [Option.getD_some, Option.getD_none] <;> omega

/-- A call that takes no time is over before any deadline. -/
theorem Clock.not_past (timeout : Option Nat) (now : Nat) :
    isPast (timeout.map (wake now)) (wake now 0) = false := by
  cases timeout with
  | none => rfl
  | some ms => exact decide_eq_false (Nat.not_lt.2 (wake_zero_le now ms))

namespace Hall

variable {W : Type} {p : Ports W} {h : Hall W} {r : Request}

/-- A request that is let in is told why there is no key, with a deadline or without. -/
theorem command_of_keyError {agent : AgentSpec} {task : TaskSpec} {e : StorageError}
    (hin : LetIn h r agent task) (hkey : (p.lookupKey r.room h.world).2 = .error e)
    (timeout : Option Nat) :
    (h.command p r timeout).2 = .replied (Refusal.registry e).reply := by
  have hcall : (Stage.lookup agent task).call? (h.desk.checked h.now r) r =
      some (.lookupKey r.room) := rfl
  have hbound : callBound h.desk.retry.attempts = 2 * h.desk.retry.attempts + 6 + 1 + 1 := rfl
  rw [command, start_of_letIn hin, hbound]
  dsimp only
  rw [runFrom_call_deadline hcall]
  simp only [Ports.serve, Clock.not_past, hkey]
  rfl

/-- A request that is not let in is at its end at once. -/
theorem start_of_not_letIn (hout : ∀ agent task, ¬ LetIn h r agent task) :
    ∃ d, (∃ reply, Stage.start h.desk h.now r = (d, .finished reply)) ∨
      Stage.start h.desk h.now r = (d, .broken) := by
  rw [start_eq]
  cases hv : (h.desk.limiter.allow h.now r.user).1 with
  | overflow => exact ⟨_, .inr rfl⟩
  | denied => exact ⟨_, .inl ⟨_, rfl⟩⟩
  | allowed =>
    cases hlive : h.desk.cache.live? h.now (Desk.cacheKey r) with
    | some text => exact ⟨_, .inl ⟨_, rfl⟩⟩
    | none =>
      have hlisted := Stage.ofCatalog_listed h.desk r.command
      generalize Stage.ofCatalog h.desk r.command = stage at hlisted ⊢
      cases hlisted with
      | noAgent => exact ⟨_, .inl ⟨_, rfl⟩⟩
      | noTask => exact ⟨_, .inl ⟨_, rfl⟩⟩
      | known hagent htask => exact absurd ⟨hv, hlive, hagent, htask⟩ (hout _ _)

/-- A request that is not let in comes to the same end in every world. -/
theorem command_of_not_letIn (hout : ∀ agent task, ¬ LetIn h r agent task) (w : W)
    (timeout : Option Nat) :
    (command p { h with world := w } r timeout).2 = (h.command p r timeout).2 := by
  rw [command, command]
  obtain ⟨d, ⟨reply, hstart⟩ | hstart⟩ := start_of_not_letIn hout
  · rw [hstart]
    rfl
  · rw [hstart]
    rfl

end Hall

namespace Database

/-- The database with a room that is active and has a text for its key. -/
def storeKey (room text : String) (createdAt : Cell) (db : Database) : Database :=
  { db with rooms := some (Named.insert room ⟨.text text, .int 1, createdAt⟩ (db.rooms.getD [])) }

/-- What a look-up says of a text that is no key. -/
def keyError (room : String) (flaw : RoomKey.Flaw) : StorageError :=
  .query ("stored key for room " ++ room ++ ": " ++ (CipherError.invalidKey flaw.message).message)

/-- **The wording of the error tells the flaw.** -/
theorem keyError_injective {room : String} {f g : RoomKey.Flaw}
    (h : (keyError room f).message = (keyError room g).message) : f = g := by
  have hreason := (String.append_right_inj _).1 ((String.append_right_inj _).1 h)
  exact RoomKey.Flaw.message_injective ((String.append_right_inj _).1 hreason)

theorem lookupKey_storeKey {db : Database} (hread : db.canRead = true) (room text : String)
    (createdAt : Cell) :
    (db.storeKey room text createdAt).lookupKey room = (keyOf room (.text text)).map some := by
  have hrow : Named.find? room (Named.insert room ⟨.text text, .int 1, createdAt⟩
      (db.rooms.getD [])) = some (⟨.text text, .int 1, createdAt⟩ : RoomRow) :=
    Named.find?_insert_self room _ _
  simp only [lookupKey, storeKey, table_some hread, hrow, if_pos]

theorem lookupKey_of_flaw {db : Database} (hread : db.canRead = true) {room text : String}
    {flaw : RoomKey.Flaw} (createdAt : Cell)
    (h : RoomKey.decode text = .error (.invalidKey flaw.message)) :
    (db.storeKey room text createdAt).lookupKey room = .error (keyError room flaw) := by
  simp only [lookupKey_storeKey hread, keyOf, Cell.text?, h]
  rfl

end Database

/-! ## What the room is told -/

namespace Site

variable {S : Type}

/-- The hall when a room is active and has a text for its key. -/
def keyed (h : Hall (Site S)) (room text : String) (createdAt : Database.Cell) : Hall (Site S) :=
  { h with world := { h.world with
    database := h.world.database.storeKey room text createdAt } }

/-- What comes of a request in a room that has a text for its key. -/
def told (e : Equipment S) (h : Hall (Site S)) (r : Request) (timeout : Option Nat)
    (createdAt : Database.Cell) (text : String) : Outcome :=
  ((keyed h r.room text createdAt).command (ports e) r timeout).2

/-- A request that is let in is told the flaw. -/
theorem told_of_flaw (e : Equipment S) {h : Hall (Site S)} {r : Request} {agent : AgentSpec}
    {task : TaskSpec} (hin : h.LetIn r agent task) (hread : h.world.database.canRead = true)
    {text : String} {flaw : RoomKey.Flaw}
    (hflaw : RoomKey.decode text = .error (.invalidKey flaw.message)) (timeout : Option Nat)
    (createdAt : Database.Cell) :
    told e h r timeout createdAt text =
      .replied ⟨"Error: " ++ (Database.keyError r.room flaw).message, .failed⟩ := by
  have hkeyed : (keyed h r.room text createdAt).LetIn r agent task :=
    ⟨hin.allowed, hin.missed, hin.knownAgent, hin.knownTask⟩
  exact Hall.command_of_keyError hkeyed (Database.lookupKey_of_flaw hread createdAt hflaw) timeout

/-- **Of a text that is no key the room is told the flaw, and nothing else.** Two
rejected texts in one room have flaws that they show; the errors of the look-ups are
worded alike just when the flaws are the same; and a request that is let in ends in a
failure with those words, while any other ends in the same way with both. Texts of
one length with as much padding have the same flaw unless it names a byte. -/
theorem flaws_told (e : Equipment S) (h : Hall (Site S)) (r : Request) (timeout : Option Nat)
    (createdAt : Database.Cell) (hread : h.world.database.canRead = true) {text text' : String}
    {error error' : CipherError} (hrejected : RoomKey.decode text = .error error)
    (hrejected' : RoomKey.decode text' = .error error') :
    ∃ flaw flaw' : RoomKey.Flaw,
      (error = .invalidKey flaw.message ∧ error' = .invalidKey flaw'.message) ∧
      (flaw.Shows (RoomKey.readBytes text) ∧ flaw'.Shows (RoomKey.readBytes text')) ∧
      ((h.world.database.storeKey r.room text createdAt).lookupKey r.room =
          .error (Database.keyError r.room flaw) ∧
        (h.world.database.storeKey r.room text' createdAt).lookupKey r.room =
          .error (Database.keyError r.room flaw')) ∧
      ((Database.keyError r.room flaw).message = (Database.keyError r.room flaw').message ↔
        flaw = flaw') ∧
      (∀ agent task, h.LetIn r agent task →
        told e h r timeout createdAt text =
            .replied ⟨"Error: " ++ (Database.keyError r.room flaw).message, .failed⟩ ∧
          told e h r timeout createdAt text' =
            .replied ⟨"Error: " ++ (Database.keyError r.room flaw').message, .failed⟩) ∧
      ((∀ agent task, ¬ h.LetIn r agent task) →
        told e h r timeout createdAt text = told e h r timeout createdAt text') ∧
      (flaw.named? = none → flaw'.named? = none →
        (RoomKey.readBytes text).length = (RoomKey.readBytes text').length →
        (RoomKey.readBytes text).count Base64.pad = (RoomKey.readBytes text').count Base64.pad →
        flaw = flaw') := by
  obtain ⟨flaw, rfl, hshows⟩ := RoomKey.flaw_of_decode hrejected
  obtain ⟨flaw', rfl, hshows'⟩ := RoomKey.flaw_of_decode hrejected'
  refine ⟨flaw, flaw', ⟨rfl, rfl⟩, ⟨hshows, hshows'⟩, ⟨?_, ?_⟩, ⟨?_, ?_⟩, ?_, ?_, ?_⟩
  · exact Database.lookupKey_of_flaw hread createdAt hrejected
  · exact Database.lookupKey_of_flaw hread createdAt hrejected'
  · exact Database.keyError_injective
  · rintro rfl
    rfl
  · intro agent task hin
    exact ⟨told_of_flaw e hin hread hrejected timeout createdAt,
      told_of_flaw e hin hread hrejected' timeout createdAt⟩
  · intro hout
    have hsame : ∀ t, told e h r timeout createdAt t = (h.command (ports e) r timeout).2 := fun t =>
      Hall.command_of_not_letIn hout _ timeout
    rw [hsame text, hsame text']
  · intro hnone hnone' hlength hpads
    rw [hshows.of_unnamed hnone, hshows'.of_unnamed hnone', hlength, hpads]

/-- A hall at its start, with a site that has no room. -/
def opening : Hall (Site Unit) := ⟨.ofSettings {} .small, ⟨.empty, (), 0⟩, 0⟩

theorem letIn_opening : opening.LetIn (.poem "lobby" "rain") .writer .poem where
  allowed := by decide +kernel
  missed := by decide +kernel
  knownAgent := rfl
  knownTask := rfl

/-- Two texts of the same wrong size are told alike. -/
theorem flaws_told_of_size :
    let answered := told oneAnswer opening (.poem "lobby" "rain") none (.text "")
    RoomKey.decode "AAAA" = .error (.invalidKey "expected 32 bytes, got 3") ∧
      RoomKey.decode "BBBB" = .error (.invalidKey "expected 32 bytes, got 3") ∧
      answered "AAAA" = answered "BBBB" ∧
      answered "AAAA" = .replied ⟨"Error: query error: stored key for room lobby: " ++
        "invalid room key: expected 32 bytes, got 3", .failed⟩ := by
  have hfirst : RoomKey.decode "AAAA" = .error (.invalidKey "expected 32 bytes, got 3") := by
    decide +kernel
  have hsecond : RoomKey.decode "BBBB" = .error (.invalidKey "expected 32 bytes, got 3") := by
    decide +kernel
  have hsize : ∀ flaw : RoomKey.Flaw,
      CipherError.invalidKey "expected 32 bytes, got 3" = .invalidKey flaw.message →
        flaw = .size 3 := fun flaw h =>
    RoomKey.Flaw.message_injective ((CipherError.invalidKey.inj h).symm.trans (by decide +kernel))
  obtain ⟨flaw, flaw', ⟨hflaw, hflaw'⟩, -, -, -, htold, -, -⟩ :=
    flaws_told oneAnswer opening (.poem "lobby" "rain") none (.text "") rfl hfirst hsecond
  obtain ⟨hanswer, hanswer'⟩ := htold _ _ letIn_opening
  obtain rfl := hsize flaw hflaw
  obtain rfl := hsize flaw' hflaw'
  exact ⟨hfirst, hsecond, hanswer.trans hanswer'.symm, hanswer.trans (by decide +kernel)⟩

/-- **A room is told a byte of its stored key.** Two texts of 44 characters differ in
one of them, and both are no key. The look-ups are worded by that character, and so
are the replies. -/
theorem byte_told :
    let text := "AAAAAAAAAAAAAAAAAAAAAAAAAAAAAAAAAAAAAAAAAAB="
    let text' := "AAAAAAAAAAAAAAAAAAAAAAAAAAAAAAAAAAAAAAAAAAC="
    let stored := fun t => opening.world.database.storeKey "lobby" t (.text "")
    let answered := told oneAnswer opening (.poem "lobby" "rain") none (.text "")
    let worded := fun byte : String => "query error: stored key for room lobby: " ++
      "invalid room key: Invalid last symbol " ++ byte ++ ", offset 42."
    text.length = text'.length ∧
      ((∃ e, (stored text).lookupKey "lobby" = .error e ∧ e.message = worded "66") ∧
        ∃ e, (stored text').lookupKey "lobby" = .error e ∧ e.message = worded "67") ∧
      answered text = .replied ⟨"Error: " ++ worded "66", .failed⟩ ∧
      answered text' = .replied ⟨"Error: " ++ worded "67", .failed⟩ ∧
      answered text ≠ answered text' := by
  have hfirst : RoomKey.decode "AAAAAAAAAAAAAAAAAAAAAAAAAAAAAAAAAAAAAAAAAAB=" =
      .error (.invalidKey (RoomKey.Flaw.unwritten (.lastSymbol 66 42)).message) := by
    decide +kernel
  have hsecond : RoomKey.decode "AAAAAAAAAAAAAAAAAAAAAAAAAAAAAAAAAAAAAAAAAAC=" =
      .error (.invalidKey (RoomKey.Flaw.unwritten (.lastSymbol 67 42)).message) := by
    decide +kernel
  refine ⟨by decide +kernel, ⟨⟨_, Database.lookupKey_of_flaw rfl _ hfirst, by decide +kernel⟩, _,
    Database.lookupKey_of_flaw rfl _ hsecond, by decide +kernel⟩, ?_⟩
  decide +kernel

end Site

end Colloquy
