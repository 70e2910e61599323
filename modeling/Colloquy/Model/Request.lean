import Colloquy.Prompt
import Colloquy.Settings.Basic
/-!
# Requests to a model

Agents and summaries are requests to one chat-completions endpoint. An agent
may name a model and a temperature of its own. The key comes from the
environment, under the name that the settings give, or else under the name
that is customary for such endpoints; a server may do without one.
-/

namespace Colloquy

/-- What a request to a model needs besides its messages. -/
structure ModelAccess where
  settings : ModelSettings
  /-- The key of the settings' own variable. -/
  ownKey : Option String
  /-- The key of the customary variable. -/
  commonKey : Option String

/-- A request as it goes to the server. -/
structure ModelRequest where
  /-- The address it goes to. -/
  url : String
  authorization : String
  body : Json

namespace ModelAccess

/-- The customary variable of a key. -/
def commonVariable : String := "OPENAI_API_KEY"

/-- The access that an environment gives. An empty key of the settings' own
variable is none. -/
def ofEnvironment (s : ModelSettings) (lookup : String → Option String) : ModelAccess where
  settings := s
  ownKey := (lookup s.apiKeyEnv).filter (· ≠ "")
  commonKey := lookup commonVariable

/-- Whether the settings' own variable has a key. -/
def hasKey (a : ModelAccess) : Bool := a.ownKey.isSome

/-- The value of the header that carries the key. -/
def authorization (a : ModelAccess) : String :=
  "Bearer " ++ a.ownKey.getD (a.commonKey.getD "")

/-- A request for the completion of messages. -/
def request (a : ModelAccess) (messages : List ChatMessage) (model : Option String)
    (temperature : Float32) : ModelRequest where
  url := a.settings.baseUrl ++ "/chat/completions"
  authorization := a.authorization
  body := .object [("messages", .list (messages.map ChatMessage.toJson)),
    ("model", .text (model.getD a.settings.model)),
    ("max_completion_tokens", .nat a.settings.maxTokens),
    ("temperature", .float temperature.toFloat)]

/-- The request of an agent's task. -/
def agentRequest (a : ModelAccess) (agent : AgentSpec) (task : TaskSpec)
    (context input : String) : ModelRequest :=
  a.request (Prompt.agentMessages agent task context input) agent.model
    (agent.temperature.getD a.settings.temperature)

/-- The request of a summary. -/
def summaryRequest (a : ModelAccess) (history : String) : ModelRequest :=
  a.request (Prompt.summaryMessages history) none a.settings.summaryTemperature

end ModelAccess

end Colloquy
