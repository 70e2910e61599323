import Colloquy.Json.Printer
import Colloquy.Shape
import Colloquy.Text.Blank
/-!
# The conversation window

The history that a pipeline sees. The decrypted records are joined line by
line; when that is over budget it is replaced by a summary with the latest
records behind it, or cut to its end when there is no summary.
-/

namespace Colloquy

/-- How the history was reduced. -/
inductive Compaction where
  | none
  | summarized
  | truncated
deriving DecidableEq, Repr

namespace Compaction

/-- Every way. -/
def all : List Compaction := [.none, .summarized, .truncated]

/-- The name of a way in data. -/
def name : Compaction → String
  | .none => "none"
  | .summarized => "summarized"
  | .truncated => "truncated"

/-- The name of a way for a reader. -/
def title : Compaction → String
  | .none => "None"
  | .summarized => "Summarized"
  | .truncated => "Truncated"

/-- The way of a name. -/
def ofName? (name : String) : Option Compaction :=
  all.find? fun c => c.name = name

end Compaction

/-- The history handed to a pipeline, and how it came about. -/
structure ConversationWindow where
  text : String
  recordsLoaded : Nat
  recordsSkipped : Nat
  compaction : Compaction
deriving DecidableEq, Repr

namespace ConversationWindow

/-- The window of a room without history. -/
def empty : ConversationWindow := ⟨"", 0, 0, .none⟩

/-- Whether a window shows nothing. -/
def isEmpty (w : ConversationWindow) : Bool := w.text = ""

/-- The shape of a window's JSON form. -/
def shape : Shape :=
  .record [Shape.needs "text" .anyText, Shape.needs "records_loaded" .word64,
    Shape.needs "records_skipped" .word64,
    Shape.needs "compaction" (.tag (Compaction.all.map Compaction.name))]

/-- The JSON form of a window. -/
def toJson (w : ConversationWindow) : Json :=
  .object [("text", .text w.text), ("records_loaded", .nat w.recordsLoaded),
    ("records_skipped", .nat w.recordsSkipped), ("compaction", .text w.compaction.name)]

/-- The window of a value of the shape. -/
def ofJson? (j : Json) : Option ConversationWindow := do
  let compaction ← Compaction.ofName? ((j.field "compaction").textOr "")
  some ⟨(j.field "text").textOr "", (j.field "records_loaded").natOr 0,
    (j.field "records_skipped").natOr 0, compaction⟩

end ConversationWindow

namespace Memory

/-- One exchange as it is stored. -/
def exchange (user agent : String) : String :=
  "User: " ++ user ++ "\nAI: " ++ agent

/-- A rough count of tokens: the words, times 1.3. -/
def estimateTokens (text : String) : Float :=
  (UInt64.ofNat (Text.wordCount text)).toFloat * 1.3

/-- Whether the estimate for a text is at most a threshold of 32 bits, decided in
tenths of a token. The double `1.3` lies above thirteen tenths by less than a
rounding takes back, so a product that ought to be the threshold is rounded to
it, and one that ought to be more is more by a tenth and stays above. -/
def withinTokens (text : String) (threshold : Nat) : Bool :=
  13 * Text.wordCount text ≤ 10 * threshold

/-- Where the characters of a text begin when the first begins at `start`,
counted in octets. -/
def offsets (start : Nat) : List Char → List Nat
  | [] => []
  | c :: rest => start :: offsets (start + c.utf8Size) rest

/-- Where the last characters of a text begin. The last none begin where the
text ends. -/
def tailStart (text : String) (count : Nat) : Nat :=
  ((offsets 0 text.toList)[text.length - count]?).getD text.utf8ByteSize

/-- A text from an octet on, if a character begins there or the text ends. -/
def sliceFrom? (text : String) (octet : Nat) : Option String :=
  (text.pos? ⟨octet⟩).map fun pos => (text.sliceFrom pos).copy

/-- The last characters of a text, all of them when there are fewer. They are cut
off at an octet, which falls between two characters (`tailStart_append`). -/
def tailChars (text : String) (count : Nat) : String :=
  if text.length ≤ count then text else (sliceFrom? text (tailStart text count)).getD ""

/-- The last items of a list, all of them when there are fewer. -/
def lastOf {α : Type} (count : Nat) (items : List α) : List α :=
  items.drop (items.length - count)

/-- Records joined line by line. -/
def joined (records : List String) : String :=
  "\n".intercalate records

/-- A summary with the latest records behind it. -/
def summarized (summary : String) (records : List String) (recent : Nat) : String :=
  "[SUMMARY OF PREVIOUS CONVERSATION]: " ++ summary ++ "\n\n[RECENT MESSAGES]:\n" ++
    joined (lastOf recent records)

/-- The end of a history behind a mark. -/
def truncated (history : String) (count : Nat) : String :=
  "...[Earlier conversation omitted]...\n\n" ++ tailChars history count

end Memory

end Colloquy
