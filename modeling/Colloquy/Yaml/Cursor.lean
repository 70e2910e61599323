/-!
# A place in a YAML text

The rest of the text with its position. Five characters end a line; a carriage
return with a line feed behind it counts once. Most of them stand for a line
feed in a scalar, and the separators of Unicode stand for themselves.
-/

namespace Colloquy.Yaml

/-- A place in a text. -/
structure Cursor where
  rest : List Char
  index : Nat
  line : Nat
  column : Nat

/-- Whether a character ends a line. -/
def isBreak (c : Char) : Bool :=
  c = '\n' || c = '\r' || c.toNat = 0x85 || c.toNat = 0x2028 || c.toNat = 0x2029

/-- Whether a character is a blank within a line. -/
def isBlank (c : Char) : Bool := c = ' ' || c = '\t'

/-- Whether a character may be part of an anchor's name. -/
def isWord (c : Char) : Bool := c.isAlphanum || c = '_' || c = '-'

/-- Whether a character may stand in a text at all. -/
def isAllowed (c : Char) : Bool :=
  let n := c.toNat
  n = 9 || n = 10 || n = 13 || (0x20 ≤ n && n ≤ 0x7E) || n = 0x85 ||
    (0xA0 ≤ n && n ≤ 0xD7FF) || (0xE000 ≤ n && n ≤ 0xFFFD && n ≠ 0xFEFF) || 0x10000 ≤ n

namespace Cursor

/-- The beginning of a text. -/
def start (text : List Char) : Cursor := ⟨text, 0, 0, 0⟩

/-- The character that is so many places ahead. -/
def ahead? (c : Cursor) (n : Nat) : Option Char := c.rest[n]?

/-- The character at the cursor. -/
def here? (c : Cursor) : Option Char := c.rest.head?

/-- Whether a character stands so many places ahead. -/
def looksAt (c : Cursor) (n : Nat) (ch : Char) : Bool := c.ahead? n = some ch

/-- Whether the text ends here. -/
def atEnd (c : Cursor) : Bool := c.rest.isEmpty

/-- Whether a blank, a line end or the end of the text is so many places
ahead. -/
def isGapAt (c : Cursor) (n : Nat) : Bool :=
  match c.ahead? n with
  | none => true
  | some ch => isBlank ch || isBreak ch

/-- Whether a blank stands here. -/
def atBlank (c : Cursor) : Bool := c.here?.any isBlank

/-- Whether a line ends here. -/
def atBreak (c : Cursor) : Bool := c.here?.any isBreak

/-- Whether a line or the text ends here. -/
def atLineEnd (c : Cursor) : Bool := c.atEnd || c.atBreak

/-- The place behind the next character. -/
def skip (c : Cursor) : Cursor :=
  match c.rest with
  | [] => c
  | _ :: rest => ⟨rest, c.index + 1, c.line, c.column + 1⟩

/-- The place so many characters further in the line. -/
def skipMany (c : Cursor) (n : Nat) : Cursor :=
  ⟨c.rest.drop n, c.index + n, c.line, c.column + n⟩

/-- What the line end here stands for, and the place behind it. Where no line
ends there is nothing to pass. -/
def takeBreak (c : Cursor) : List Char × Cursor :=
  match c.rest with
  | '\r' :: '\n' :: rest => (['\n'], ⟨rest, c.index + 2, c.line + 1, 0⟩)
  | ch :: rest =>
    if !isBreak ch then ([], c)
    else
      let kept := ch.toNat = 0x2028 || ch.toNat = 0x2029
      ([if kept then ch else '\n'], ⟨rest, c.index + 1, c.line + 1, 0⟩)
  | [] => ([], c)

/-- The place behind the characters that pass a test. -/
def skipWhile (c : Cursor) (test : Char → Bool) : Cursor :=
  c.skipMany (c.rest.takeWhile test).length

/-- The characters that pass a test, and the place behind them. -/
def takeWhile (c : Cursor) (test : Char → Bool) : List Char × Cursor :=
  (c.rest.takeWhile test, c.skipWhile test)

/-- The end of the line of a comment that starts here, or this place. -/
def skipComment (c : Cursor) : Cursor :=
  if c.looksAt 0 '#' then c.skipWhile fun ch => !isBreak ch else c

/-- Whether a mark of three characters begins or ends a document here. -/
def atMark (c : Cursor) (ch : Char) : Bool :=
  c.column = 0 && c.looksAt 0 ch && c.looksAt 1 ch && c.looksAt 2 ch && c.isGapAt 3

/-- Whether a document begins or ends here. -/
def atDocumentMark (c : Cursor) : Bool := c.atMark '-' || c.atMark '.'

end Cursor

end Colloquy.Yaml
