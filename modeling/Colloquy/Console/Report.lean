import Colloquy.Catalog.Basic
import Colloquy.Console.Grid
import Colloquy.Memory.Window
import Colloquy.Program
import Colloquy.Reply
import Colloquy.Room
/-!
# Reports of errands

What a run writes when its errand is done: for a reader one marked line or a
grid, and with the switch for it JSON on one line, or over several where it
holds a list or a reply.
-/

namespace Colloquy.Console

/-- What an errand has to say, or why it failed. -/
abbrev Report := Except String String

/-- A line. -/
def line (text : String) : String := text ++ "\n"

/-- A line behind a mark. -/
def marked (mark text : String) : String :=
  line ("  " ++ mark ++ " " ++ text)

/-- A marked line between two empty ones. -/
def notice (text : String) : String :=
  line "" ++ marked "i" text ++ line ""

/-- A line of JSON. -/
def jsonLine (members : List (String × Json)) : String :=
  line (Json.ofMembers members).compact

namespace Report

/-! ## Rooms -/

/-- A room is registered. -/
def registered (json : Bool) (room : String) (created : Bool) : String :=
  if json then jsonLine [("room_id", .text room), ("created", .bool created)]
  else if created then marked "✓" ("Room '" ++ room ++ "' registered with a new key")
  else marked "i" ("Room '" ++ room ++ "' already registered (key kept, now active)")

/-- There is no room to list. -/
def noRooms : String :=
  notice ("No rooms registered. Add one with: " ++ Program.name ++ " room register <room-id>")

/-- The grid of rooms with the numbers of their records. -/
def roomGrid (rooms : List (RoomInfo × Nat)) : Grid where
  header := ["Room", "Status", "Records", "Registered"]
  rows := rooms.map fun (room, count) =>
    [room.id, if room.active then "active" else "inactive", toString count,
      room.createdAt.shortText]

/-- Rooms as JSON. -/
def roomsJson (rooms : List RoomInfo) : String :=
  line (Json.list (rooms.map RoomInfo.toJson)).pretty

/-- A room is deactivated. -/
def deactivated (json : Bool) (room : String) : String :=
  if json then jsonLine [("room_id", .text room), ("active", .bool false)]
  else marked "✓" ("Room '" ++ room ++ "' deactivated; the bot will ignore it until re-registered")

/-- What the removal of a room would destroy. -/
def removalWarning (room : String) (count : Nat) : String :=
  marked "!" ("Removing '" ++ room ++ "' destroys its key and " ++ toString count ++
    " stored exchange(s). Re-run with --force")

/-- A room is removed. -/
def removed (json : Bool) (room : String) (count : Nat) : String :=
  if json then
    jsonLine [("room_id", .text room), ("removed", .bool true), ("deleted", .nat count)]
  else marked "✓" ("Room '" ++ room ++ "' removed (" ++ toString count ++ " exchange(s) deleted)")

/-- Why an errand about a room fails that has no row. -/
def unregistered (room : String) : String := "room '" ++ room ++ "' is not registered"

/-! ## Histories -/

/-- The window of a room. -/
def memory (json : Bool) (room : String) (w : ConversationWindow) : String :=
  if json then line (Json.ofMembers (("room_id", .text room) :: w.toJson.members)).compact
  else if w.isEmpty then marked "i" ("No history for '" ++ room ++ "'")
  else
    line ("  " ++ toString w.recordsLoaded ++ " records, " ++ toString w.recordsSkipped ++
      " skipped, " ++ w.compaction.title) ++ line "" ++ line w.text

/-- A history is deleted. -/
def cleared (json : Bool) (room : String) (count : Nat) : String :=
  if json then jsonLine [("room_id", .text room), ("deleted", .nat count)]
  else marked "✓" ("Cleared " ++ toString count ++ " exchange(s) from '" ++ room ++ "'")

/-! ## The catalog -/

/-- The grid of agents; one without a model of its own has the given one. -/
def agentGrid (model : String) (c : Catalog) : Grid where
  header := ["Agent", "Role", "Model"]
  rows := c.agents.map fun (_, a) => [a.name, a.role, a.model.getD model]

/-- The grid of tasks. -/
def taskGrid (c : Catalog) : Grid where
  header := ["Task", "Description"]
  rows := c.tasks.map fun (_, t) => [t.name, t.description]

/-- The JSON form of a catalog. -/
def catalogJson (c : Catalog) : Json :=
  .object [("agents", .list (c.agents.map fun (_, a) => .ofMembers a.toJson.members)),
    ("tasks", .list (c.tasks.map fun (_, t) => .ofMembers t.toJson.members))]

/-- The catalog, with the model of agents that name none and the path of the
agents' file. -/
def catalog (json : Bool) (model agentsPath : String) (c : Catalog) : String :=
  if json then line (catalogJson c).pretty
  else if c.agents.isEmpty then notice ("No agents loaded. Check " ++ agentsPath)
  else line (agentGrid model c).text ++ line (taskGrid c).text

/-! ## Chat -/

/-- The mark of a reply's source. -/
def sourceMark : ReplySource → String
  | .pipeline => "›"
  | .cache => "›"
  | .rateLimited => "!"
  | .rejected => "!"
  | .failed => "✗"

/-- The reply to a message, or that it was no command. -/
def reply (json : Bool) (r : Option Reply) : String :=
  if json then line (Json.ofOption Reply.toJson r).pretty
  else
    match r with
    | none => marked "i" "Not a command for a known agent. Try: @<agent> [task] <content>"
    | some r =>
      marked (sourceMark r.source) r.text ++ if r.source = .cache then line "  (cached)" else ""

/-! ## Serving -/

/-- The service listens at a host and a port. -/
def listening (host : String) (port : Nat) : String :=
  marked "⚡" (Program.name.capitalize ++ " API listening on http://" ++ host ++ ":" ++
    toString port) ++ line "  Press Ctrl+C to stop"

/-- The service has stopped. -/
def stopped : String := line "" ++ line "  Server stopped."

end Report

end Colloquy.Console
