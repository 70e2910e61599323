import Colloquy.Moment
import Colloquy.Service.Exchange
import Colloquy.Storage
/-!
# The envelope of a response

Everything that the service answers about rooms and commands is the data of an
envelope, or an error in one. The first error's code decides the status.
-/

namespace Colloquy.Service

/-- An error in an envelope. -/
structure ErrorDetail where
  code : String
  message : String
deriving DecidableEq, Repr

/-- Data with what is said about the request. -/
structure Envelope where
  data : Json
  requestId : String
  timestamp : Moment
  elapsed : Nat
  errors : List ErrorDetail := []

/-- The status of an error code. -/
def statusOf (code : String) : Nat :=
  if code = "NOT_FOUND" || code = "ROOM_NOT_FOUND" then 404
  else if code = "VALIDATION_ERROR" then 400
  else 500

namespace Envelope

/-- An envelope with an error and no data. -/
def ofError (e : ErrorDetail) (requestId : String) (timestamp : Moment) (elapsed : Nat) :
    Envelope :=
  ⟨.null, requestId, timestamp, elapsed, [e]⟩

/-- The JSON form of an envelope; an empty list of errors is left out. -/
def toJson (e : Envelope) : Json :=
  let details := e.errors.map fun d =>
    Json.object [("code", .text d.code), ("message", .text d.message)]
  .object ([("data", e.data), ("meta", .object [("request_id", .text e.requestId),
      ("timestamp", .text e.timestamp.text), ("response_time_ms", .nat e.elapsed)])] ++
    if e.errors.isEmpty then [] else [("errors", .list details)])

/-- The status of an envelope. -/
def status (e : Envelope) : Nat :=
  match e.errors with
  | [] => 200
  | d :: _ => statusOf d.code

/-- The response that carries an envelope. -/
def response (e : Envelope) : HttpResponse :=
  .json e.status e.toJson

end Envelope

/-- Why a request is not done. -/
inductive Fault where
  | storage (cause : StorageError)
  | roomNotFound (room : String)
  | invalid (reason : String)
deriving DecidableEq, Repr

namespace Fault

/-- The error that a fault is shown as. -/
def detail : Fault → ErrorDetail
  | .storage cause => ⟨"STORAGE_ERROR", cause.message⟩
  | .roomNotFound room => ⟨"ROOM_NOT_FOUND", "Room '" ++ room ++ "' is not registered"⟩
  | .invalid reason => ⟨"VALIDATION_ERROR", reason⟩

/-- The response to a request with a fault; it bears no identifier. -/
def response (f : Fault) (timestamp : Moment) : HttpResponse :=
  (Envelope.ofError f.detail "" timestamp 0).response

end Fault

end Colloquy.Service
