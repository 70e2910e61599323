import Colloquy.Proofs.Dispatch.Effect
/-!
# An exchange is stored once or not at all

A save seals its exchange once and files the record. What the store answers
decides how far the filing goes (`Ports.file_world`): a write that succeeds is
the last, behind one that fails the store is reconnected, and behind that the
same bytes are written again. This holds at all ports, so also at those that
note their uses (`Hall.saveUses_eq`). Over a store in which a write that fails
leaves nothing, the record is stored once or not at all
(`Hall.saved_once_or_not`).
-/

namespace Colloquy

/-- **How far a filing goes** is decided by the first write and the
reconnection. -/
theorem Ports.file_world {W : Type} (p : Ports W) (room : String) (record : List UInt8)
    (s : Scene W) :
    (p.file room record s).world =
      let first := p.appendRecord room record s.world
      let reopened := p.reconnect first.1
      match first.2, reopened.2 with
      | .ok _, _ => first.1
      | .error _, .error _ => reopened.1
      | .error _, .ok _ => (p.appendRecord room record reopened.1).1 := by
  simp only [file, write]
  cases (p.appendRecord room record s.world).2 with
  | ok _ => rfl
  | error e =>
    dsimp only
    cases (p.reconnect (p.appendRecord room record s.world).1).2 <;> rfl

namespace Hall

variable {W : Type} {p : Ports W} {records : W → String → List (List UInt8)}

/-- What a save uses of its ports, in order. -/
def saveUses (p : Ports W) (h : Hall W) (room : String) (key : RoomKey) (user agent : String) :
    List PortUse :=
  (h.noting.save p.noted room key user agent).world.2

/-- **The save of a command is the save outside of any**, which changes nothing
but the world. -/
theorem save_eq_keep (p : Ports W) (h : Hall W) (room : String) (key : RoomKey)
    (user agent : String) :
    h.save p room key user agent = { h with
      world := (p.keep room key (Memory.exchange user agent) ⟨h.world, h.now⟩).world } := by
  simp only [save, Ports.keep, Ports.file_world]
  generalize Saving.recordOf (Memory.exchange user agent) _ = record
  generalize (p.encrypt key (Text.Utf8.encode (Memory.exchange user agent)) h.world).1 = w
  cases (p.appendRecord room record w).2 with
  | ok _ => rfl
  | error e =>
    simp only [Saving.afterWrite]
    cases (p.reconnect (p.appendRecord room record w).1).2 <;> rfl

/-- **Noting is not noticed** by a save either. -/
theorem save_noted (p : Ports W) (h : Hall W) (room : String) (key : RoomKey)
    (user agent : String) :
    (h.noting.save p.noted room key user agent).plain = h.save p room key user agent := by
  rw [save_eq_keep, save_eq_keep]
  simp only [plain, noting, Ports.keep, Ports.file_world, Ports.noted, Ports.note, Ports.after]
  generalize Saving.recordOf (Memory.exchange user agent) _ = record
  generalize (p.encrypt key (Text.Utf8.encode (Memory.exchange user agent)) h.world).1 = w
  cases (p.appendRecord room record w).2 with
  | ok _ => rfl
  | error e => cases (p.reconnect (p.appendRecord room record w).1).2 <;> rfl

/-- **The uses of a save**: the exchange is sealed once, and the record that comes
of it is written, and written again, as far as the filing goes. -/
theorem saveUses_eq (h : Hall W) (room : String) {key : RoomKey} {user agent : String}
    {w : W} {sealed : Except CipherError (List UInt8)} {record : List UInt8}
    (hsealed : p.encrypt key (Text.Utf8.encode (Memory.exchange user agent)) h.world = (w, sealed))
    (hrecord : Saving.recordOf (Memory.exchange user agent) sealed = record) :
    h.saveUses p room key user agent =
      .encrypt key (Text.Utf8.encode (Memory.exchange user agent)) :: .appendRecord room record ::
        match (p.appendRecord room record w).2,
          (p.reconnect (p.appendRecord room record w).1).2 with
        | .ok _, _ => []
        | .error _, .error _ => [.reconnect]
        | .error _, .ok _ => [.reconnect, .appendRecord room record] := by
  simp only [saveUses, save_eq_keep, noting, Ports.keep, Ports.file_world, Ports.noted, Ports.note,
    Ports.after, hsealed, hrecord]
  cases (p.appendRecord room record w).2 with
  | ok _ => rfl
  | error e => cases (p.reconnect (p.appendRecord room record w).1).2 <;> rfl

/-- **An exchange is stored once or not at all**, and whenever the single retry
allows it. Over a store in which a write that fails leaves nothing, and whatever
it answers, a save ends, leaves the desk and the clock as they are, and does to
the world what the save of a command does. It seals the exchange once. The
record is what comes of that, or the marked plain text when sealing fails; it is
written a second time only behind a write that fails and a reconnection, and it
stands once behind the records of its room if one of the writes succeeds, and
otherwise nowhere. -/
theorem saved_once_or_not (hp : p.Shelves records) (h : Hall W) (room : String) (key : RoomKey)
    (user agent : String) :
    let plaintext := "User: " ++ user ++ "\nAI: " ++ agent
    let sealed := p.encrypt key (Text.Utf8.encode plaintext) h.world
    let record := match sealed.2 with
      | .ok ciphertext => ciphertext
      | .error _ => Text.Utf8.encode ("ERROR_ENCRYPTING: " ++ plaintext)
    let first := p.appendRecord room record sealed.1
    let reopened := p.reconnect first.1
    let second := p.appendRecord room record reopened.1
    let sealing := PortUse.encrypt key (Text.Utf8.encode plaintext)
    let writing := PortUse.appendRecord room record
    let uses := h.saveUses p room key user agent
    let behind := h.save p room key user agent
    (first.2 = .ok () → uses = [sealing, writing] ∧
      records behind.world = shelve (records h.world) room [record]) ∧
    (∀ e, first.2 = .error e →
      (∀ e', reopened.2 = .error e' → uses = [sealing, writing, .reconnect] ∧
        records behind.world = records h.world) ∧
      (reopened.2 = .ok () → uses = [sealing, writing, .reconnect, writing] ∧
        (second.2 = .ok () →
          records behind.world = shelve (records h.world) room [record]) ∧
        ∀ e', second.2 = .error e' → records behind.world = records h.world)) ∧
    behind.desk = h.desk ∧ behind.now = h.now ∧
    behind.world = (p.keep room key plaintext ⟨h.world, h.now⟩).world := by
  intro plaintext sealed record first reopened second sealing writing uses behind
  have hrecord : Saving.recordOf plaintext sealed.2 = record := by
    cases hsealed : sealed.2 <;> simp only [record, hsealed, Saving.recordOf, Saving.fallbackTag]
  have hkeep : behind =
      { h with world := (p.keep room key plaintext ⟨h.world, h.now⟩).world } :=
    save_eq_keep p h room key user agent
  have hworld : behind.world = (p.file room record ⟨sealed.1, h.now⟩).world := by
    rw [hkeep, ← hrecord]
    rfl
  have huses : uses = sealing :: writing :: match first.2, reopened.2 with
      | .ok _, _ => []
      | .error _, .error _ => [.reconnect]
      | .error _, .ok _ => [.reconnect, writing] := saveUses_eq h room rfl hrecord
  replace hworld : behind.world = match first.2, reopened.2 with
      | .ok _, _ => first.1
      | .error _, .error _ => reopened.1
      | .error _, .ok _ => second.1 := hworld.trans (p.file_world room record _)
  -- neither the sealing nor a reconnection touches the records
  have hsealed : records sealed.1 = records h.world := hp.read h.world sealing rfl
  have hreopened : records reopened.1 = records first.1 := hp.read first.1 .reconnect rfl
  refine ⟨fun hfirst => ?_, fun e hfirst => ⟨fun e' hopen => ?_, fun hopen => ?_⟩, ?_⟩
  · rw [hfirst] at hworld huses
    refine ⟨huses, ?_⟩
    rw [hworld, hp.written _ room record hfirst, hsealed]
  · rw [hfirst, hopen] at hworld huses
    refine ⟨huses, ?_⟩
    rw [hworld, hreopened, hp.unwritten _ room record e hfirst, hsealed]
  · rw [hfirst, hopen] at hworld huses
    have hbefore : records reopened.1 = records h.world := by
      rw [hreopened, hp.unwritten _ room record e hfirst, hsealed]
    refine ⟨huses, fun hsecond => ?_, fun e' hsecond => ?_⟩
    · rw [hworld, hp.written _ room record hsecond, hbefore]
    · rw [hworld, hp.unwritten _ room record e' hsecond, hbefore]
  · rw [hkeep]
    exact ⟨rfl, rfl, rfl⟩

/-- A hall whose store fails one write, and whose cipher seals nothing. -/
def faltering : Hall Rehearsal :=
  .small { Rehearsal.twoRooms with failures := { appends := [some .connection], encrypt := true } }

/-- In the faltering hall the plain text is written twice and stored once. -/
theorem saved_once_behind_retry :
    let record := Text.Utf8.encode "ERROR_ENCRYPTING: User: hi\nAI: hello"
    faltering.saveUses (Rehearsal.ports false) "lobby" (.uniform 7) "hi" "hello" =
        [.encrypt (.uniform 7) (Text.Utf8.encode "User: hi\nAI: hello"),
          .appendRecord "lobby" record, .reconnect, .appendRecord "lobby" record] ∧
      (faltering.save (Rehearsal.ports false) "lobby" (.uniform 7) "hi" "hello").world.recordsOf
        "lobby" = [record] := by
  intro record
  obtain ⟨-, hfailed, -⟩ :=
    saved_once_or_not (Rehearsal.shelves false) faltering "lobby" (.uniform 7) "hi" "hello"
  obtain ⟨-, hreopened⟩ := hfailed .connection rfl
  obtain ⟨huses, hstored, -⟩ := hreopened rfl
  refine ⟨huses, ?_⟩
  rw [hstored rfl]
  rfl

end Hall

end Colloquy
