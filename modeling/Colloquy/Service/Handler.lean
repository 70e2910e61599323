import Colloquy.Program
import Colloquy.Service.Body
import Colloquy.Service.Handling
import Colloquy.Service.Route
import Colloquy.Uuid
/-!
# Handling requests

A request is matched with a route, its names and its body are read, and only
then is anything done. Chat is always answered with a reply; what fails is a
request that is malformed, that names a room which is not there, or that
storage cannot serve.
-/

namespace Colloquy.Service

variable {S : Type}

/-- The state of the service: the desk and the site at an instant. -/
abbrev State (S : Type) := Hall (Site S)

/-- The state of the service while it handles a request. -/
abbrev Attending (S : Type) := Hall (Handling S)

/-- What a request came to: data for an envelope, or a fault. A command that
broke down has neither. -/
inductive Result where
  | data (j : Json)
  | fault (f : Fault)
  | broken

/-- The result of a change or question to storage. -/
def Result.ofStorage {α : Type} (f : α → Result) : Except StorageError α → Result
  | .ok a => f a
  | .error e => .fault (.storage e)

/-- The result of a command. -/
def Result.ofOutcome : Outcome → Result
  | .replied r => .data r.toJson
  | _ => .broken

/-- Works on the site. -/
def onSite {α : Type} (h : Attending S) (f : Handling S → Handling S × α) : Attending S × α :=
  let (world, a) := f h.world
  ({ h with world := world }, a)

/-- A message posted in a room. -/
def postMessage (o : Outage) (e : Equipment S) (h : Attending S) (room : String)
    (m : PostedMessage) : Attending S × Result :=
  match requireField "user_id" m.user with
  | .error f => (h, .fault f)
  | .ok _ =>
    match h.message (Handling.ports o e) m.user room m.body none with
    | (h, none) => (h, .data .null)
    | (h, some outcome) => (h, .ofOutcome outcome)

/-- A command that is already taken apart. -/
def postCommand (o : Outage) (e : Equipment S) (h : Attending S) (c : PostedCommand) :
    Attending S × Result :=
  let checked := do
    requireField "user_id" c.user
    requireField "room_id" c.room
    requireField "agent" c.agent
  match checked with
  | .error f => (h, .fault f)
  | .ok _ =>
    let (h, outcome) := h.command (Handling.ports o e) ⟨c.user, c.room, c.command⟩ none
    (h, .ofOutcome outcome)

/-- Registers a room. -/
def registerRoom (o : Outage) (e : Equipment S) (h : Attending S) (r : PostedRoom) :
    Attending S × Result :=
  match requireField "room_id" r.room with
  | .error f => (h, .fault f)
  | .ok _ =>
    let (h, created) := onSite h (Handling.registerRoom o e h.now r.room)
    (h, .ofStorage (fun created =>
      .data (.object [("room_id", .text r.room), ("created", .bool created)])) created)

/-- A room with a count of what was deleted in it. -/
def deletedJson (room : String) (count : Nat) : Json :=
  .object [("room_id", .text room), ("deleted", .nat count)]

/-- Removes a room with its history. -/
def removeRoom (o : Outage) (h : Attending S) (room : String) : Attending S × Result :=
  let (h, removed) := onSite h (Handling.removeRoom o room)
  (h, .ofStorage (fun
    | some count => .data (deletedJson room count)
    | none => .fault (.roomNotFound room)) removed)

/-- Deletes the history of a room. -/
def clearMemory (o : Outage) (e : Equipment S) (h : Attending S) (room : String) :
    Attending S × Result :=
  let (h, deleted) := h.forget (Handling.ports o e) room
  (h, .ofStorage (fun count => .data (deletedJson room count)) deleted)

/-- Ends a session. -/
def clearSession (h : Attending S) (room user : String) : Attending S × Result :=
  ({ h with desk := { h.desk with sessions := h.desk.sessions.clear user room } },
    .data (.object [("room_id", .text room), ("user_id", .text user)]))

/-- Lists the rooms. -/
def listRooms (o : Outage) (h : Attending S) : Attending S × Result :=
  let (h, rooms) := onSite h (Handling.send o (Site.query Database.listRooms))
  (h, .ofStorage (fun rooms => .data (.list (rooms.map RoomInfo.toJson))) rooms)

/-- The metrics and the sizes of what the desk keeps. -/
def metricsJson (e : Equipment S) (h : Attending S) : Json :=
  let d := h.desk
  .object [("request_count", .nat d.metrics.requests), ("error_count", .nat d.metrics.errors),
    ("response_times_ms", .list (d.metrics.times.map .float)),
    ("last_request_at", if d.metrics.requests = 0 then .null else .text (e.moment h.now).text),
    ("avg_response_time_ms", .float d.metrics.average),
    ("cache_entries", .nat d.cache.size), ("active_sessions", .nat d.sessions.size),
    ("rate_limited_users", .nat d.limiter.trackedUsers)]

/-- The names in the catalog. -/
def catalogJson (c : Catalog) : Json :=
  .object [("agents", .list (c.agents.map fun a => .text a.1)),
    ("tasks", .list (c.tasks.map fun t => .text t.1))]

/-- Empties the cache. -/
def clearCache (h : Attending S) : Attending S × Result :=
  ({ h with desk := { h.desk with cache := h.desk.cache.clear } },
    .data (.object [("cleared", .nat h.desk.cache.size)]))

/-- The response to a request that came to a result in some milliseconds. A
command that broke down is not answered. -/
def respond (e : Equipment S) (h : Attending S) (since : Nat) (requestId : String) :
    Result → Option HttpResponse
  | .data j => some (Envelope.mk j requestId (e.moment h.now) (h.now - since) []).response
  | .fault f => some (f.response (e.moment h.now))
  | .broken => none

/-- Draws an identifier for a request. -/
def identify (e : Equipment S) (h : Attending S) : Attending S × String :=
  onSite h (Handling.beside fun w =>
    (w.draw, Uuid.ofTime (e.startedAt + h.now) (e.octets w.draws 10)))

/-- Does what a request asks for and responds. -/
def perform (e : Equipment S) (h : Attending S) (work : Attending S → Attending S × Result) :
    Attending S × Option HttpResponse :=
  let since := h.now
  let (h, requestId) := identify e h
  let (h, result) := work h
  (h, respond e h since requestId result)

/-- Does what a request asks for with its body. -/
def performWith {α : Type} (e : Equipment S) (h : Attending S) (r : HttpRequest) (shape : Shape)
    (ofJson : Json → α) (work : Attending S → α → Attending S × Result) :
    Attending S × Option HttpResponse :=
  match readBody shape ofJson r with
  | .error response => (h, some response)
  | .ok posted => perform e h fun h => work h posted

/-- The work at a route whose names are decoded. -/
def serveRoute (o : Outage) (e : Equipment S) (h : Attending S) (r : HttpRequest) (verb : Verb) :
    Route → Attending S × Option HttpResponse
  | .health =>
    (h, some (.json 200 (.object [("status", .text "ok"), ("version", .text Program.version)])))
  | .commands =>
    performWith e h r PostedCommand.shape PostedCommand.ofJson fun h c => postCommand o e h c
  | .rooms =>
    if verb = .get then perform e h fun h => listRooms o h
    else
      performWith e h r PostedRoom.shape PostedRoom.ofJson fun h room => registerRoom o e h room
  | .messages name =>
    performWith e h r PostedMessage.shape PostedMessage.ofJson fun h m =>
      postMessage o e h name m
  | .room name => perform e h fun h => removeRoom o h name
  | .memory name => perform e h fun h => clearMemory o e h name
  | .session name user => perform e h fun h => clearSession h name user
  | .metrics => perform e h fun h => (h, .data (metricsJson e h))
  | .catalog => perform e h fun h => (h, .data (catalogJson h.desk.catalog))
  | .cache => perform e h clearCache

/-- The response to a request that is not served: the route is unknown, or the
method is not one of its own. -/
def unserved (route : Option Route) : HttpResponse :=
  match route with
  | none => ⟨404, [], ""⟩
  | some route => ⟨405, [("allow", route.allow)], ""⟩

/-- The response to a question about what is allowed, which every path
answers. -/
def preflight (route : Option Route) : HttpResponse :=
  let headers := match route with
    | none => []
    | some route => [("allow", route.allow)]
  ⟨200, headers ++ [("access-control-allow-methods", "*"), ("access-control-allow-headers", "*")],
    ""⟩

/-- The response to any request, before the header that every one has. -/
def answer (o : Outage) (e : Equipment S) (h : Attending S) (r : HttpRequest) :
    Attending S × Option HttpResponse :=
  let route := Route.ofPath? r.path
  if r.method = "OPTIONS" then (h, some (preflight route))
  else
    match route, Verb.ofMethod? r.method with
    | some route, some verb =>
      if route.verbs.contains verb then
        match route.decode? with
        | none => (h, some (.plain 400 "Invalid URL"))
        | some route => serveRoute o e h r verb route
      else (h, some (unserved (some route)))
    | route, _ => (h, some (unserved route))

/-- The state in which a request is taken in hand. -/
def enter (h : State S) : Attending S := { h with world := ⟨h.world, 0⟩ }

/-- The state behind a request. -/
def leave (h : Attending S) : State S := { h with world := h.world.site }

/-- Handles a request in an outage. Every response may be read from anywhere,
and a request for the headers alone gets no body. -/
def handleDuring (o : Outage) (e : Equipment S) (h : State S) (r : HttpRequest) :
    State S × Option HttpResponse :=
  let (h, response) := answer o e (enter h) r
  (leave h, response.map fun response =>
    let response := response.adding "access-control-allow-origin" "*"
    if r.method = "HEAD" then response.bodiless else response)

/-- Handles a request while the database executes what it is sent. -/
def handle (e : Equipment S) (h : State S) (r : HttpRequest) : State S × Option HttpResponse :=
  handleDuring .none e h r

end Colloquy.Service
