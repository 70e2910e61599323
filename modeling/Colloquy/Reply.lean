import Colloquy.Pipeline
import Colloquy.Storage
/-!
# Replies

A reply is the text that goes back to the room, and the stage that produced
it. A command that yields no agent output ends in a `Refusal`, whose wording
is the text of its reply.
-/

namespace Colloquy

/-- Which stage produced a reply. -/
inductive ReplySource where
  | rateLimited
  | cache
  | pipeline
  | rejected
  | failed
deriving DecidableEq, Repr

namespace ReplySource

/-- Every source. -/
def all : List ReplySource :=
  [.rateLimited, .cache, .pipeline, .rejected, .failed]

/-- The name of a source. -/
def name : ReplySource → String
  | .rateLimited => "rate_limited"
  | .cache => "cache"
  | .pipeline => "pipeline"
  | .rejected => "rejected"
  | .failed => "failed"

/-- The source of a name. -/
def ofName? (name : String) : Option ReplySource :=
  all.find? fun s => s.name = name

/-- The shape of a source's JSON form. -/
def shape : Shape := .tag (all.map name)

end ReplySource

/-- Text sent back to a room. -/
structure Reply where
  text : String
  source : ReplySource
deriving DecidableEq, Repr

namespace Reply

/-- Whether the text is agent output. -/
def isAnswer (r : Reply) : Bool :=
  r.source = .cache || r.source = .pipeline

/-- The shape of a reply's JSON form. -/
def shape : Shape :=
  .record [Shape.needs "text" .anyText, Shape.needs "source" ReplySource.shape]

/-- The JSON form of a reply. -/
def toJson (r : Reply) : Json :=
  .object [("text", .text r.text), ("source", .text r.source.name)]

/-- The reply of a value of the shape. -/
def ofJson? (j : Json) : Option Reply := do
  let source ← ReplySource.ofName? ((j.field "source").textOr "")
  some ⟨(j.field "text").textOr "", source⟩

end Reply

/-- Why a command yields no agent output. -/
inductive Refusal where
  | rateLimitExceeded
  | unknownAgent (name : String)
  | unknownTask (name : String)
  | roomNotRegistered
  | registry (cause : StorageError)
  | pipeline (cause : PipelineError)
deriving DecidableEq, Repr

namespace Refusal

/-- The wording of a refusal, as the room sees it. -/
def message : Refusal → String
  | .rateLimitExceeded => "Rate limit exceeded. Please try again later."
  | .unknownAgent name => "Unknown agent: " ++ name
  | .unknownTask name => "Unknown task: " ++ name
  | .roomNotRegistered => "Error: Room not registered"
  | .registry cause => "Error: " ++ cause.message
  | .pipeline cause => "Error: " ++ cause.message

/-- The stage that a refusal comes from. -/
def source : Refusal → ReplySource
  | .rateLimitExceeded => .rateLimited
  | .registry _ => .failed
  | .pipeline _ => .failed
  | _ => .rejected

/-- The reply that a refusal ends in. -/
def reply (r : Refusal) : Reply := ⟨r.message, r.source⟩

end Refusal

end Colloquy
