import Colloquy.Site
/-!
# The database while a request is handled

Any statement that a request sends to the database may fail, and has then done
nothing; an `Outage` says which ones do, by their number in the request. A
removal sends its steps one by one, in a transaction that a failure undoes.
-/

namespace Colloquy.Service

/-- The statements of a request that fail, by their number, and how. -/
abbrev Outage := Nat → Option StorageError

/-- No statement fails. -/
def Outage.none : Outage := fun _ => Option.none

/-- A site while a request is handled. -/
structure Handling (S : Type) where
  site : Site S
  /-- How many statements the request has sent to the database. -/
  sent : Nat := 0

namespace Handling

variable {S α : Type}

/-- Sends a statement to the database. -/
def send (o : Outage) (statement : Site S → Site S × Except StorageError α) (w : Handling S) :
    Handling S × Except StorageError α :=
  match o w.sent with
  | some e => ({ w with sent := w.sent + 1 }, .error e)
  | none =>
    let (site, r) := statement w.site
    (⟨site, w.sent + 1⟩, r)

/-- Works on the site with no statement. -/
def beside (f : Site S → Site S × α) (w : Handling S) : Handling S × α :=
  let (site, a) := f w.site
  ({ w with site := site }, a)

/-- The uses of a site in an outage. -/
def ports (o : Outage) (e : Equipment S) : Ports (Handling S) :=
  let p := Site.ports e
  { lookupKey := fun room => send o (p.lookupKey room)
    listRecords := fun room limit => send o (p.listRecords room limit)
    appendRecord := fun room record => send o (p.appendRecord room record)
    deleteRecords := fun room => send o (p.deleteRecords room)
    reconnect := send o p.reconnect
    encrypt := fun key plaintext => beside (p.encrypt key plaintext)
    decrypt := p.decrypt
    summarize := fun history => beside (p.summarize history)
    invoke := fun agent task context input => beside (p.invoke agent task context input) }

/-- Registers a room with a fresh key. A room that has a row takes a statement
more, which makes it active. -/
def registerRoom (o : Outage) (e : Equipment S) (now : Nat) (room : String) (w : Handling S) :
    Handling S × Except StorageError Bool :=
  let row := Database.freshRow (e.key w.site.draws) (e.moment now)
  match send o (Site.change (Database.insertRoom room row)) { w with site := w.site.draw } with
  | (w, .ok false) =>
    let (w, activated) := send o (Site.change (Database.setActive room true)) w
    (w, activated.map fun _ => false)
  | answer => answer

/-- The number of a step among the statements of a removal, which ends in one
way or the other. -/
def place : Database.RemovalStep → Nat
  | .start => 0
  | .deleteRecords => 1
  | .deleteRoom => 2
  | .rollback => 3
  | .commit => 3

/-- Removes a room with its history. -/
def removeRoom (o : Outage) (room : String) (w : Handling S) :
    Handling S × Except StorageError (Option Nat) :=
  let fault step := (o (w.sent + place step)).or (w.site.database.removalFault step)
  let (site, removed) := Site.change (Database.removeRoomWith fault room) w.site
  (⟨site, w.sent + 4⟩, removed)

end Handling

end Colloquy.Service
