import Colloquy.Text.Blank
import Colloquy.Text.Percent
/-!
# Routes

The paths that the service knows, and the methods of each. The name at the end
of a path must be there, while a name inside of one may be empty.
-/

namespace Colloquy.Service

/-- A place that requests may go to; names are as they stand in the path. -/
inductive Route where
  | health
  | commands
  | rooms
  | messages (name : String)
  | room (name : String)
  | memory (name : String)
  | session (name user : String)
  | metrics
  | catalog
  | cache
deriving DecidableEq, Repr

/-- What a request may do at a route. -/
inductive Verb where
  | get
  | post
  | delete
deriving DecidableEq, Repr

/-- The verb of a method. A request for the headers alone is answered like one
for the whole. -/
def Verb.ofMethod? (method : String) : Option Verb :=
  if method = "GET" || method = "HEAD" then some .get
  else if method = "POST" then some .post
  else if method = "DELETE" then some .delete
  else none

namespace Route

/-- The route of the parts of a path under the common beginning. -/
def ofParts? : List String → Option Route
  | ["commands"] => some .commands
  | ["rooms"] => some .rooms
  | ["metrics"] => some .metrics
  | ["agents"] => some .catalog
  | ["cache"] => some .cache
  | ["rooms", name] => if name = "" then none else some (.room name)
  | ["rooms", name, "messages"] => some (.messages name)
  | ["rooms", name, "memory"] => some (.memory name)
  | ["rooms", name, "sessions", user] => if user = "" then none else some (.session name user)
  | _ => none

/-- The route of a path. -/
def ofPath? (path : String) : Option Route :=
  match (Text.splitOnChar '/' path.toList).map String.ofList with
  | ["", "health"] => some .health
  | "" :: "api" :: "v1" :: parts => ofParts? parts
  | _ => none

/-- The verbs of a route. -/
def verbs : Route → List Verb
  | .health => [.get]
  | .metrics => [.get]
  | .catalog => [.get]
  | .rooms => [.get, .post]
  | .commands => [.post]
  | .messages _ => [.post]
  | .room _ => [.delete]
  | .memory _ => [.delete]
  | .session _ _ => [.delete]
  | .cache => [.delete]

/-- The methods of a verb. -/
def methodNames : Verb → List String
  | .get => ["GET", "HEAD"]
  | .post => ["POST"]
  | .delete => ["DELETE"]

/-- The methods of a route as a header lists them. -/
def allow (r : Route) : String :=
  ",".intercalate (r.verbs.flatMap methodNames)

/-- The route with its names decoded. -/
def decode? : Route → Option Route
  | .messages name => (Text.Percent.decode? name).map .messages
  | .room name => (Text.Percent.decode? name).map .room
  | .memory name => (Text.Percent.decode? name).map .memory
  | .session name user => do
    let name ← Text.Percent.decode? name
    let user ← Text.Percent.decode? user
    some (.session name user)
  | r => some r

end Route

end Colloquy.Service
