import Colloquy.Catalog.Spec
/-!
# Prompts

The words that a model is given: the persona of an agent as the system
message, and a task with the conversation before it as the user message.
-/

namespace Colloquy

/-- A message to a model. -/
structure ChatMessage where
  role : String
  content : String
deriving DecidableEq, Repr

namespace Prompt

/-- The persona of an agent. A backstory of blanks is none. -/
def persona (agent : AgentSpec) : String :=
  let story := Text.trim agent.backstory
  let opening := "You are " ++ agent.role ++ ".\nYour goal: " ++ agent.goal
  if story = "" then opening else opening ++ "\n\n" ++ story

/-- A task in the user's words, behind the conversation so far. -/
def taskText (task : TaskSpec) (context input : String) : String :=
  (if context = "" then "" else "Conversation so far:\n" ++ context ++ "\n\n") ++
    "Task: " ++ task.render input ++
    (if task.expectedOutput = "" then "" else "\n\nExpected output: " ++ task.expectedOutput)

/-- The request for a summary. -/
def summaryText (history : String) : String :=
  "Summarize the following conversation history concisely, focusing on key points " ++
    "and preserving important information:\n\n" ++ history

/-- The messages of an agent's task. -/
def agentMessages (agent : AgentSpec) (task : TaskSpec) (context input : String) :
    List ChatMessage :=
  [⟨"system", persona agent⟩, ⟨"user", taskText task context input⟩]

/-- The messages of a request for a summary. -/
def summaryMessages (history : String) : List ChatMessage :=
  [⟨"user", summaryText history⟩]

end Prompt

/-- The JSON form of a message. -/
def ChatMessage.toJson (m : ChatMessage) : Json :=
  .object [("content", .text m.content), ("role", .text m.role)]

end Colloquy
