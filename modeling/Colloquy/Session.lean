import Colloquy.Json.Reader
import Colloquy.Moment
import Colloquy.Table
import Colloquy.Uuid
/-!
# Sessions

Each pair of user and room has at most one session. Every access to it counts
as activity; an access after it has been idle for longer than `timeout` works
on a new session with an empty context. `visit` is the one way in: it opens,
replaces or refreshes the session of a pair and then applies a change to its
context.
-/

namespace Colloquy

/-- The values that a session keeps under names. -/
abbrev Context := List (String × Json)

/-- A live session. Its number tells it from every other session of the
store. -/
structure Session where
  number : Nat
  context : Context
  lastSeen : Nat

/-- The sessions by user and room. -/
structure SessionStore where
  timeout : Nat
  sessions : Table (String × String) Session
  /-- How many sessions have been opened. -/
  opened : Nat

namespace SessionStore

/-- A store without sessions. -/
def empty (timeout : Nat) : SessionStore := ⟨timeout, .empty, 0⟩

/-- Whether a session has been idle for too long. -/
def isExpired (s : SessionStore) (now : Nat) (session : Session) : Bool :=
  s.timeout < now - session.lastSeen

/-- The session that an access of a pair works on, and the number of sessions
opened with it. -/
def current (s : SessionStore) (now : Nat) (user room : String) : Session × Nat :=
  match s.sessions.get? (user, room) with
  | some session =>
    if s.isExpired now session then (⟨s.opened, [], now⟩, s.opened + 1)
    else ({ session with lastSeen := now }, s.opened)
  | none => (⟨s.opened, [], now⟩, s.opened + 1)

/-- Applies a change to the context of a pair's session. -/
def visit {α : Type} (s : SessionStore) (now : Nat) (user room : String)
    (change : Session → α × Context) : α × SessionStore :=
  let (session, opened) := s.current now user room
  let (result, context) := change session
  (result, { s with
    sessions := s.sessions.put (user, room) { session with context := context }
    opened := opened })

/-- The session of a pair. -/
def getOrCreate (s : SessionStore) (now : Nat) (user room : String) : Session × SessionStore :=
  s.visit now user room fun session => (session, session.context)

/-- Writes one value. -/
def update (s : SessionStore) (now : Nat) (user room key : String) (value : Json) : SessionStore :=
  (s.visit now user room fun session => ((), Named.insert key value session.context)).2

/-- Changes the context, and gives what the change gives. -/
def updateWith {α : Type} (s : SessionStore) (now : Nat) (user room : String)
    (change : Context → α × Context) : α × SessionStore :=
  s.visit now user room fun session => change session.context

/-- One value, or a default. -/
def getContext (s : SessionStore) (now : Nat) (user room key : String) (default : Json) :
    Json × SessionStore :=
  s.visit now user room fun session =>
    ((Named.find? key session.context).getD default, session.context)

/-- The count under a name; a value that is no count is zero. -/
def count (key : String) (context : Context) : Nat :=
  ((Named.find? key context).getD .null).natOr 0

/-- A context with the count under a name one higher, in 64 bits. -/
def countUp (key : String) (context : Context) : Context :=
  Named.insert key (.nat ((count key context + 1) % Nat.pow 2 64)) context

/-- Counts a value up and gives the old count. -/
def increment (s : SessionStore) (now : Nat) (user room key : String) : Nat × SessionStore :=
  s.updateWith now user room fun context => (count key context, countUp key context)

/-- Removes a value and gives it back. -/
def remove (s : SessionStore) (now : Nat) (user room key : String) : Json × SessionStore :=
  s.updateWith now user room fun context =>
    ((Named.find? key context).getD .null, Named.erase key context)

/-- Forgets the session of a pair. -/
def clear (s : SessionStore) (user room : String) : SessionStore :=
  { s with sessions := s.sessions.erase (user, room) }

/-- The store without expired sessions, and how many those were. -/
def sweep (s : SessionStore) (now : Nat) : Nat × SessionStore :=
  let live := s.sessions.keep fun session => !s.isExpired now session
  (s.sessions.size - live.size, { s with sessions := live })

/-- The number of sessions, expired ones too. -/
def size (s : SessionStore) : Nat := s.sessions.size

end SessionStore

namespace Session

/-- Whether a text is a moment. -/
def isMoment (s : String) : Bool := (Moment.ofRelaxed? s).isSome

/-- The shape of a session's JSON form. -/
def shape : Shape :=
  .record [Shape.needs "id" (.text fun s => (Uuid.canonical? s).isSome),
    Shape.needs "user_id" .anyText, Shape.needs "room_id" .anyText,
    Shape.needs "created_at" (.text isMoment), Shape.needs "last_activity_at" (.text isMoment),
    Shape.needs "context" (.mapOf .any)]

/-- A moment in its canonical text. -/
def canonicalMoment (j : Json) : Json :=
  .ofOption (fun m : Moment => .text m.text) (Moment.ofRelaxed? (j.textOr ""))

/-- A value of the shape with its identifier and its moments in canonical
text. -/
def canonical (j : Json) : Json :=
  .object [("id", .ofOption .text (Uuid.canonical? ((j.field "id").textOr ""))),
    ("user_id", j.field "user_id"), ("room_id", j.field "room_id"),
    ("created_at", canonicalMoment (j.field "created_at")),
    ("last_activity_at", canonicalMoment (j.field "last_activity_at")),
    ("context", j.field "context")]

end Session

end Colloquy
