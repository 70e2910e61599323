import Colloquy.Cipher.Seed
import Colloquy.Database.Snapshot
import Colloquy.Host.Run
import Colloquy.Model.Address
import Colloquy.Model.Relay
import Colloquy.Sweeper
import Std.Async.DNS
import Std.Async.Select
import Std.Async.Signal
import Std.Async.TCP
import Std.Time.DateTime.Timestamp
/-!
# The program

The only part with effects: it reads files and the environment, lets the
library decide, and writes what came of it. Requests to the model server go
out over a plain connection, and the service takes one connection at a time.
-/

namespace Colloquy.Terminal

open Std.Async
open Service (Message)

/-! ## Files -/

/-- The content of a file, if it can be read. -/
def content? (path : String) : IO (Option (List UInt8)) := do
  try
    return some (← IO.FS.readBinFile path).toList
  catch _ => return none

/-- A folder with the files that can be read at some paths. -/
def gather (folder : Folder) (paths : List String) : IO Folder :=
  paths.foldlM (fun folder path => do
    match ← content? path with
    | some bytes => return { folder with files := folder.files ++ [(folder.place path, bytes)] }
    | none => return folder) folder

/-- The path of a place. -/
def pathOf (place : List String) : String := "/" ++ "/".intercalate place

/-- What the environment gives for some names. -/
def environment (names : List String) : IO (List (String × String)) :=
  names.filterMapM fun name => do return (← IO.getEnv name).map fun v => (name, v)

/-- Reads what the library needs to open an office. -/
def surroundings : IO (Host Relay) := do
  let directory := toString (← IO.currentDir)
  let found ← environment [Place.dataDirVariable, "HOME"]
  let host : Host Relay :=
    { folder := .ofFiles "" [], directory := directory, environment := found, server := {} }
  let data := host.absolute host.dataDir
  IO.FS.createDirAll data
  let folder := (host.folder.makeDirectory data).toOption.getD host.folder
  let folder ← gather folder [Place.settingsFile data]
  let host := { host with folder := folder }
  let settings := host.settings host.dataDir
  let folder ← gather folder
    ([settings.catalog.agentsPath, settings.catalog.tasksPath].map host.absolute)
  let keys ← environment [settings.model.apiKeyEnv, ModelAccess.commonVariable]
  return { host with folder := folder, environment := found ++ keys }

/-- The office with the database that its file keeps. -/
def restore (o : Office Relay) : IO (Option (Office Relay)) := do
  let bytes := (← content? (pathOf o.place)).getD []
  let database := (Text.Utf8.decode? bytes).bind Database.ofSnapshot?
  return database.map fun db =>
    { o with hall := { o.hall with world := { o.hall.world with database := db } } }

/-- Writes the database of an office into its file, unless it is the same as
before. -/
def keep (before after : Office Relay) : IO Unit := do
  let text := after.hall.world.database.snapshot
  if text ≠ before.hall.world.database.snapshot then
    let path := pathOf after.place
    IO.FS.writeFile (path ++ ".new") text
    IO.FS.rename (path ++ ".new") path

/-! ## The model server -/

/-- Receives from a connection until a message is complete. -/
partial def receive (c : TCP.Socket.Client) (toEnd : Bool) (before : ByteArray) :
    Async (Option Message) := do
  match ← c.recv? 65536 with
  | none => return Message.read? toEnd true before.toList
  | some chunk =>
    let bytes := before ++ chunk
    match Message.read? toEnd false bytes.toList with
    | some m => return some m
    | none => receive c toEnd bytes

/-- Sends a request to an address. -/
def send (r : ModelRequest) (a : ModelAddress) : Async ModelResponse := do
  let found ← DNS.getAddrInfo a.host "" (some .ipv4)
  match found.toList with
  | .v4 ip :: _ =>
    let c ← TCP.Socket.Client.mk
    c.connect (.v4 ⟨ip, UInt16.ofNat a.port⟩)
    c.send ⟨(r.message a).encode.toArray⟩
    let answer ← receive c true .empty
    c.shutdown
    match answer.bind fun m => m.status?.map fun status => (status, m.body) with
    | some (status, body) => return .answered status body
    | none => return r.unreachable
  | _ => return r.unreachable

/-- Asks the model server, and measures how long that takes. -/
def exchange (r : ModelRequest) : IO (Nat × ModelResponse) := do
  let start ← IO.monoMsNow
  let response ←
    try
      match ModelAddress.ofUrl? r.url with
      | some a => (send r a).block
      | none => pure r.unreachable
    catch _ => pure r.unreachable
  return ((← IO.monoMsNow) - start, response)

/-- Does work until no request is left behind. A request that is repeated
is a further attempt, before which there is a pause. -/
partial def settle {α : Type} (pause : Nat) (work : Relay → α × Relay) (last : String)
    (answers : List (Nat × ModelResponse)) : IO α := do
  let (result, relay) := work { answers := answers }
  match relay.held with
  | none => return result
  | some request =>
    let text := request.body.compact
    if text = last then IO.sleep (UInt32.ofNat pause)
    settle pause work text (answers ++ [← exchange request])

/-- An office with a relay in the place of its server. -/
def withRelay (o : Office Relay) (relay : Relay) : Office Relay :=
  { o with hall := { o.hall with world := { o.hall.world with server := relay } } }

/-! ## The service -/

/-- The office at an instant, swept as often as was due since the last one. -/
def sweepUntil (o : Office Relay) (s : Sweeper) (now : Nat) : Office Relay × Sweeper :=
  let s := { s with desk := o.hall.desk }.advance (now - s.now)
  ({ o with hall := { o.hall with desk := s.desk, now := now } }, s)

/-- Answers what arrives at a connection. -/
def attend (o : Office Relay) (c : TCP.Socket.Client) : Async (Office Relay) := do
  match (← receive c false .empty).map Message.request? with
  | none => return o
  | some none =>
    c.send ⟨(Message.ofResponse (.plain 400 "")).encode.toArray⟩
    c.shutdown
    return o
  | some (some request) =>
    let (after, response) ← settle o.settings.retryDelay (fun relay =>
      let o := withRelay o relay
      let (hall, response) := Service.handle o.equipment o.hall request
      (({ o with hall := hall }, response), hall.world.server)) "" []
    keep o after
    if let some response := response then
      c.send ⟨(Message.ofResponse response).encode.toArray⟩
    c.shutdown
    return after

/-- Attends to connections until a signal comes. -/
partial def attendAll (server : TCP.Socket.Server) (stops : Array Signal.Waiter) (start : Nat)
    (o : Office Relay) (s : Sweeper) : Async Unit := do
  let event ← Selectable.one <|
    #[.case server.acceptSelector fun c => return some c] ++
      stops.map fun stop => .case stop.selector fun _ => return none
  if let some c := event then
    let (o, s) := sweepUntil o s ((← IO.monoMsNow) - start)
    let o ← try attend o c catch _ => pure o
    attendAll server stops start o s

/-- The address of a host and a port. -/
def socketAddress (host : String) (port : Nat) : Async Std.Net.SocketAddress := do
  let found ← DNS.getAddrInfo host ""
  match found.toList with
  | .v4 ip :: _ => return .v4 ⟨ip, UInt16.ofNat port⟩
  | .v6 ip :: _ => return .v6 ⟨ip, UInt16.ofNat port⟩
  | [] => throw (IO.userError "failed to lookup address information")

/-- Serves until a signal comes. -/
def serve (o : Office Relay) (host : String) (port : Nat) : Async Unit := do
  let server ← TCP.Socket.Server.mk
  server.bind (← socketAddress host port)
  server.listen 128
  IO.print (Console.Report.listening host port)
  (← IO.getStdout).flush
  let stops := #[← Signal.Waiter.mk .sigint false, ← Signal.Waiter.mk .sigterm false]
  let start ← IO.monoMsNow
  attendAll server stops start o (.start o.hall.desk o.settings.sweepInterval)
  IO.print Console.Report.stopped

/-! ## A run -/

/-- Writes the end of a run and gives its code. -/
def finish (exit : Exit) : IO UInt32 := do
  IO.print exit.output
  if let some reason := exit.failure then
    IO.eprintln ("Error: " ++ reason)
  return UInt32.ofNat exit.code

/-- Carries out an errand in an office. -/
def runIn (host : Host Relay) (o : Office Relay) (c : CommandLine) : IO UInt32 := do
  match c.errand with
  | .serve name port =>
    try
      (serve o name port).block
      return 0
    catch fault => finish (.failed (toString fault))
  | errand =>
    let (after, exit) ← settle o.settings.retryDelay (fun relay =>
      let (after, exit, _) := host.runIn (withRelay o relay) c.json [] errand
      ((after, exit), after.hall.world.server)) "" []
    keep o after
    finish exit

/-- The equipment of this run. -/
def equipment : IO (Equipment Relay) := do
  let seed ← IO.getRandomBytes 32
  let startedAt := (← Std.Time.Timestamp.now).toMillisecondsSinceUnixEpoch.val.toNat
  return ⟨.ofEnvironment {} fun _ => none, Relay.send, Seed.octet seed.toList, startedAt⟩

/-- Runs the program with arguments. -/
def run (arguments : List String) : IO UInt32 := do
  match CommandLine.parse arguments with
  | .error fault =>
    IO.eprint (Console.complaint fault)
    finish (.ofUsage fault)
  | .ok c =>
    if let .completions shell := c.errand then
      finish ⟨0, Console.completions shell, none⟩
    else
      try
        match (← surroundings).openOffice (← equipment) with
        | (_, .error reason) => finish (.failed reason)
        | (host, .ok o) =>
          match ← restore o with
          | some o => runIn host o c
          | none => finish (.failed "error returned from database: (code: 26) file is not a database")
      catch fault => finish (.failed (toString fault))

end Colloquy.Terminal

/-- The program. -/
def main (arguments : List String) : IO UInt32 :=
  Colloquy.Terminal.run arguments
