import Colloquy.Memory.Window
import Colloquy.Pipeline
import Colloquy.Settings.Basic
import Colloquy.Storage
/-!
# Loading a window

A load reads the latest records of a room and, when they are over budget,
asks for a summary. `Loading` says where a load stands between these two
waits. No failure leaves it: without records there is an empty window, an
unreadable record is skipped, and without a summary the history is cut.
-/

namespace Colloquy

/-- Where a load stands. -/
inductive Loading where
  /-- The records are being read. -/
  | reading
  /-- A summary of the decrypted records is awaited. -/
  | summarizing (records : List String) (skipped : Nat)
  /-- The window is there. -/
  | loaded (window : ConversationWindow)

namespace Loading

/-- Whether records fit the budget as they are. -/
def fits (m : MemorySettings) (records : List String) : Bool :=
  Memory.withinTokens (Memory.joined records) m.tokenThreshold

/-- Where a load stands with its records decrypted. -/
def ofRecords (m : MemorySettings) (records : List String) (skipped : Nat) : Loading :=
  if records.isEmpty then .loaded { ConversationWindow.empty with recordsSkipped := skipped }
  else if fits m records then
    .loaded ⟨Memory.joined records, records.length, skipped, .none⟩
  else .summarizing records skipped

/-- Where a load stands when its records have been read, or could not be.
`readable` gives the text of a stored record that can be read. -/
def afterRead (m : MemorySettings) (readable : List UInt8 → Option String) :
    Except StorageError (List (List UInt8)) → Loading
  | .error _ => .loaded .empty
  | .ok blobs =>
    let records := blobs.filterMap readable
    ofRecords m records (blobs.length - records.length)

/-- The window of records over budget, with a summary or without one. -/
def afterSummary (m : MemorySettings) (records : List String) (skipped : Nat) :
    Except PipelineError String → ConversationWindow
  | .ok summary =>
    ⟨Memory.summarized summary records m.recentRecords, records.length, skipped, .summarized⟩
  | .error _ =>
    ⟨Memory.truncated (Memory.joined records) m.truncateChars, records.length, skipped, .truncated⟩

end Loading

end Colloquy
