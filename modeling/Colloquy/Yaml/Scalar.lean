import Colloquy.Text.Hex
import Colloquy.Yaml.Cursor
/-!
# YAML scalars

Plain scalars, scalars in quotes and block scalars, each from its first
character on. Between two pieces of a plain or quoted scalar stands a `Gap`: blanks, which
are kept, or line ends, of which a single one becomes a space. Every function
takes a bound on its steps, for which the length of the text is enough.
-/

namespace Colloquy.Yaml

/-- How a scalar is written. -/
inductive Style where
  | plain
  | singleQuoted
  | doubleQuoted
  | literal
  | folded
deriving DecidableEq, Repr

/-- What stands between two pieces of a scalar. -/
structure Gap where
  blanks : List Char := []
  /-- Whether a line has ended. -/
  broken : Bool := false
  first : List Char := []
  more : List Char := []

namespace Gap

/-- Line ends as they appear in the scalar: the first one is folded. -/
def folded (first more : List Char) : List Char :=
  if first = ['\n'] then if more.isEmpty then [' '] else more else first ++ more

/-- The text that a gap stands for. -/
def text (g : Gap) : List Char :=
  if g.broken then folded g.first g.more else g.blanks

/-- The gap that goes on from here, and the place behind it. A tab that comes
before the column `least` of a new line is refused. -/
def scan (least : Int) (g : Gap) : Nat → Cursor → Option (Gap × Cursor)
  | 0, c => some (g, c)
  | fuel + 1, c =>
    match c.here? with
    | none => some (g, c)
    | some ch =>
      if isBlank ch then
        if g.broken then
          if ch = '\t' && (c.column : Int) < least then none else scan least g fuel c.skip
        else scan least { g with blanks := g.blanks ++ [ch] } fuel c.skip
      else if isBreak ch then
        let (text, c) := c.takeBreak
        if g.broken then scan least { g with more := g.more ++ text } fuel c
        else scan least { blanks := [], broken := true, first := text, more := [] } fuel c
      else some (g, c)

end Gap

/-- Whether a character has a meaning between brackets. -/
def isFlowMark (c : Char) : Bool := c = ',' || c = '[' || c = ']' || c = '\x7b' || c = '\x7d'

/-- A piece of a plain scalar: up to a blank, a line end, a colon with a gap
behind it and, between brackets, a mark. A colon right before a mark is
refused there. -/
def plainPiece? (inFlow : Bool) : Nat → Cursor → Option (List Char × Cursor)
  | 0, c => some ([], c)
  | fuel + 1, c =>
    match c.here? with
    | none => some ([], c)
    | some ch =>
      if isBlank ch || isBreak ch then some ([], c)
      else if inFlow && ch = ':' &&
          (c.ahead? 1).any (fun next => isFlowMark next || next = '?') then none
      else if (ch = ':' && c.isGapAt 1) || (inFlow && isFlowMark ch) then some ([], c)
      else (plainPiece? inFlow fuel c.skip).map fun (s, c) => (ch :: s, c)

/-- A plain scalar behind some text and a gap: its text, the place behind it,
and whether a line ended there. -/
def plainFrom? (inFlow : Bool) (indent : Int) (text : List Char) (gap : Gap) :
    Nat → Cursor → Option (List Char × Bool × Cursor)
  | 0, c => some (text, gap.broken, c)
  | fuel + 1, c =>
    if c.atDocumentMark || c.looksAt 0 '#' then some (text, gap.broken, c)
    else do
      let (piece, c) ← plainPiece? inFlow (c.rest.length + 1) c
      let text := if piece.isEmpty then text else text ++ gap.text ++ piece
      let gap := if piece.isEmpty then gap else {}
      if !(c.atBlank || c.atBreak) then some (text, gap.broken, c)
      else
        let (gap, c) ← gap.scan indent (c.rest.length + 1) c
        if !inFlow && (c.column : Int) < indent then some (text, gap.broken, c)
        else plainFrom? inFlow indent text gap fuel c

/-- A plain scalar in a block of an indentation. -/
def plain? (inFlow : Bool) (indent : Int) (c : Cursor) : Option (List Char × Bool × Cursor) :=
  plainFrom? inFlow (indent + 1) [] {} (c.rest.length + 1) c

/-- The character of a letter behind a backslash. -/
def escaped? (c : Char) : Option Char :=
  match c with
  | '0' => some (Char.ofNat 0)
  | 'a' => some (Char.ofNat 7)
  | 'b' => some (Char.ofNat 8)
  | 't' => some '\t'
  | '\t' => some '\t'
  | 'n' => some '\n'
  | 'v' => some (Char.ofNat 11)
  | 'f' => some (Char.ofNat 12)
  | 'r' => some '\r'
  | 'e' => some (Char.ofNat 27)
  | ' ' => some ' '
  | '"' => some '"'
  | '/' => some '/'
  | '\\' => some '\\'
  | 'N' => some (Char.ofNat 0x85)
  | '_' => some (Char.ofNat 0xA0)
  | 'L' => some (Char.ofNat 0x2028)
  | 'P' => some (Char.ofNat 0x2029)
  | _ => none

/-- The number of digits behind a letter that announces a code point. -/
def codeLength (c : Char) : Nat :=
  if c = 'x' then 2 else if c = 'u' then 4 else if c = 'U' then 8 else 0

/-- The value of hexadecimal digits. -/
def hexValue? : List Char → Nat → Option Nat
  | [], n => some n
  | c :: rest, n => (Text.Hex.digitValue? c).bind fun d => hexValue? rest (n * 16 + d)

/-- An escape from its backslash on. -/
def escape? (c : Cursor) : Option (Char × Cursor) := do
  let letter ← c.ahead? 1
  let count := codeLength letter
  if count = 0 then
    let ch ← escaped? letter
    some (ch, c.skipMany 2)
  else
    let digits := (c.rest.drop 2).take count
    if digits.length < count then none
    else
      let n ← hexValue? digits 0
      if (0xD800 ≤ n && n ≤ 0xDFFF) || 0x10FFFF < n then none
      else some (Char.ofNat n, c.skipMany (2 + count))

/-- A piece of a scalar in quotes: up to a blank, a line end or its quote. The
last part says whether the piece ended with an escaped line end. -/
def quotedPiece? (quote : Char) : Nat → Cursor → Option (List Char × Cursor × Bool)
  | 0, c => some ([], c, false)
  | fuel + 1, c =>
    match c.here? with
    | none => some ([], c, false)
    | some ch =>
      if isBlank ch || isBreak ch then some ([], c, false)
      else if quote = '\'' && ch = '\'' && c.looksAt 1 '\'' then
        (quotedPiece? quote fuel (c.skipMany 2)).map fun (s, r) => ('\'' :: s, r)
      else if ch = quote then some ([], c, false)
      else if quote = '"' && ch = '\\' then
        if (c.ahead? 1).any isBreak then some ([], c.skip.takeBreak.2, true)
        else do
          let (ch, c) ← escape? c
          let (s, r) ← quotedPiece? quote fuel c
          some (ch :: s, r)
      else (quotedPiece? quote fuel c.skip).map fun (s, r) => (ch :: s, r)

/-- A scalar in quotes behind its first quote and some text. -/
def quotedFrom? (quote : Char) (text : List Char) : Nat → Cursor → Option (List Char × Cursor)
  | 0, _ => none
  | fuel + 1, c =>
    if c.atDocumentMark || c.atEnd then none
    else do
      let (piece, c, joined) ← quotedPiece? quote (c.rest.length + 1) c
      let text := text ++ piece
      if c.looksAt 0 quote then some (text, c.skip)
      else
        let (gap, c) ← Gap.scan 0 { broken := joined } (c.rest.length + 1) c
        quotedFrom? quote (text ++ gap.text) fuel c

/-- A scalar in quotes from its first quote on. -/
def quoted? (quote : Char) (c : Cursor) : Option (List Char × Cursor) :=
  quotedFrom? quote [] (c.rest.length + 1) c.skip

/-- What happens to the line ends behind a block scalar. -/
inductive Chomp where
  | strip
  | clip
  | keep
deriving DecidableEq

/-- A digit of an indentation; zero is refused. -/
def indentDigit? (c : Cursor) : Option (Option Nat × Cursor) :=
  match c.here? with
  | some ch =>
    if '0' ≤ ch && ch ≤ '9' then
      if ch = '0' then none else some (some (ch.toNat - 48), c.skip)
    else some (none, c)
  | none => some (none, c)

/-- A sign of chomping. -/
def chompSign? (c : Cursor) : Option (Chomp × Cursor) :=
  if c.looksAt 0 '+' then some (.keep, c.skip)
  else if c.looksAt 0 '-' then some (.strip, c.skip)
  else none

/-- What follows the mark of a block scalar: how it is chomped, and by how
much it is indented. -/
def blockHeader? (c : Cursor) : Option (Chomp × Option Nat × Cursor) :=
  match chompSign? c with
  | some (chomp, c) => (indentDigit? c).map fun (n, c) => (chomp, n, c)
  | none => do
    let (n, c) ← indentDigit? c
    match n, chompSign? c with
    | some n, some (chomp, c) => some (chomp, some n, c)
    | n, _ => some (.clip, n, c)

/-- The indentation and the empty lines before a line of a block scalar. An
indentation of zero is not yet known; the widest line so far then sets the
bound. Gives the line ends, the bound and the place. -/
def blockBreaks? (indent : Nat) (breaks : List Char) (widest : Nat) :
    Nat → Cursor → Option (List Char × Nat × Cursor)
  | 0, c => some (breaks, widest, c)
  | fuel + 1, c =>
    let within (c : Cursor) : Bool := indent = 0 || c.column < indent
    let spaces := (c.rest.takeWhile (· = ' ')).length
    let c := c.skipMany (if indent = 0 then spaces else min spaces (indent - c.column))
    let widest := max widest c.column
    if within c && c.looksAt 0 '\t' then none
    else if !c.atBreak then some (breaks, widest, c)
    else
      let (text, c) := c.takeBreak
      blockBreaks? indent (breaks ++ text) widest fuel c

/-- The lines of a block scalar at its indentation. `first` and `more` are the
line ends behind the text so far, and `spaced` says whether its last line
began with a blank. -/
def blockLines? (isLiteral : Bool) (indent : Nat) (text first more : List Char) (spaced : Bool) :
    Nat → Cursor → Option (List Char × List Char × List Char × Cursor)
  | 0, _ => none
  | fuel + 1, c =>
    if c.column ≠ indent || c.atEnd then some (text, first, more, c)
    else do
      let blank := c.atBlank
      let fold := !isLiteral && first = ['\n'] && !spaced && !blank
      let joint := if fold then if more.isEmpty then [' '] else more else first ++ more
      let (line, c) := c.takeWhile fun ch => !isBreak ch
      let (first, c) := c.takeBreak
      let (more, _, c) ← blockBreaks? indent [] 0 (c.rest.length + 1) c
      blockLines? isLiteral indent (text ++ joint ++ line) first more blank fuel c

/-- A block scalar from its mark on, in a block of an indentation. -/
def block? (isLiteral : Bool) (parent : Int) (c : Cursor) : Option (List Char × Cursor) := do
  let (chomp, extra, c) ← blockHeader? c.skip
  let c := (c.skipWhile isBlank).skipComment
  if !c.atLineEnd then none
  else
    let (_, c) := c.takeBreak
    let given := match extra with
      | some n => (if 0 ≤ parent then parent.toNat else 0) + n
      | none => 0
    let (more, widest, c) ← blockBreaks? given [] 0 (c.rest.length + 1) c
    let indent := if given = 0 then max widest (max (parent + 1).toNat 1) else given
    let (text, first, more, c) ←
      blockLines? isLiteral indent [] [] more false (c.rest.length + 2) c
    let text := if chomp = .strip then text else text ++ first
    some (if chomp = .keep then text ++ more else text, c)

end Colloquy.Yaml
