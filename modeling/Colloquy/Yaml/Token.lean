import Colloquy.Yaml.Scalar
/-!
# YAML tokens

A text becomes the list of its tokens. Indentation opens and closes blocks. A
key without its own mark is only known from the colon behind it: every place
where such a key may start is a `Candidate`, and the colon puts the key's
token there. A candidate holds for its own line and for 1024 characters; where
nothing but a key can stand, a colon has to come.

`tokens?` has no answer for a text that breaks a rule at any place.
-/

namespace Colloquy.Yaml

/-- A token. -/
inductive Token where
  | version (major minor : Nat)
  /-- What a handle stands for in the tags of a document. -/
  | handle (name expansion : List Char)
  | documentStart
  | documentEnd
  | blockSequence
  | blockMapping
  | blockEnd
  | listStart
  | listEnd
  | mapStart
  | mapEnd
  | item
  | comma
  | key
  | value
  | alias (name : List Char)
  | anchor (name : List Char)
  | tag (handle suffix : List Char)
  | scalar (style : Style) (text : List Char)
deriving DecidableEq, Repr

/-- A place where a key without a mark may have started. -/
structure Candidate where
  /-- Whether nothing but a key can stand there. -/
  required : Bool
  /-- The number of tokens before it. -/
  before : Nat
  index : Nat
  line : Nat
  column : Nat

/-- How far a text has been read. -/
structure Lexer where
  cursor : Cursor
  tokens : Array Token := #[]
  /-- The column of the innermost block, or -1 outside of all. -/
  indent : Int := -1
  /-- The columns of the blocks around it. -/
  outer : List Int := []
  /-- Whether a key without a mark may start here. -/
  keyAllowed : Bool := true
  /-- The candidate among the blocks. -/
  blockKey : Option Candidate := none
  /-- The candidates in the brackets around this place, innermost first. -/
  flowKeys : List (Option Candidate) := []

namespace Lexer

/-- Whether the place stands between brackets. -/
def inFlow (l : Lexer) : Bool := !l.flowKeys.isEmpty

/-- One token more. -/
def add (l : Lexer) (t : Token) : Lexer := { l with tokens := l.tokens.push t }

/-- One token more, and the cursor moved on. -/
def take (l : Lexer) (t : Token) (n : Nat) : Lexer :=
  { l with tokens := l.tokens.push t, cursor := l.cursor.skipMany n }

/-- Closes the blocks that are indented further than a column. -/
def closeTo (l : Lexer) (column : Int) : Lexer :=
  if l.inFlow then l
  else
    let closed := (l.indent :: l.outer).takeWhile fun i => column < i
    let tokens := l.tokens ++ Array.replicate closed.length .blockEnd
    match (l.indent :: l.outer).drop closed.length with
    | [] => { l with tokens := tokens }
    | indent :: outer => { l with tokens := tokens, indent := indent, outer := outer }

/-- Opens a block at a column that is further in, with a token at a position. -/
def openBlock (l : Lexer) (column : Nat) (position : Nat) (t : Token) : Lexer :=
  if l.inFlow || (column : Int) ≤ l.indent then l
  else
    { l with
      indent := column
      outer := l.indent :: l.outer
      tokens := l.tokens.insertIdxIfInBounds position t }

/-- The candidate of the innermost brackets, or that among the blocks. -/
def candidate (l : Lexer) : Option Candidate :=
  match l.flowKeys with
  | [] => l.blockKey
  | c :: _ => c

/-- Puts a candidate in place of the present one. -/
def setCandidate (l : Lexer) (c : Option Candidate) : Lexer :=
  match l.flowKeys with
  | [] => { l with blockKey := c }
  | _ :: rest => { l with flowKeys := c :: rest }

/-- Gives up the present candidate, which must not be required. -/
def dropKey? (l : Lexer) : Option Lexer :=
  if l.candidate.any (·.required) then none else some (l.setCandidate none)

/-- Makes this place a candidate, if a key may start here. -/
def markKey? (l : Lexer) : Option Lexer :=
  if !l.keyAllowed then some l
  else
    l.dropKey?.map fun l =>
      let c := l.cursor
      l.setCandidate (some
        { required := !l.inFlow && l.indent = c.column
          before := l.tokens.size
          index := c.index, line := c.line, column := c.column })

/-- Whether a candidate still holds at a place. -/
def holds (c : Cursor) (k : Candidate) : Bool :=
  !(k.line < c.line || k.index + 1024 < c.index)

/-- Gives up the candidates that no longer hold, which must not be required. -/
def dropStale? (l : Lexer) : Option Lexer :=
  let stale (k : Option Candidate) : Bool := k.any fun k => !holds l.cursor k
  if (l.blockKey :: l.flowKeys).any fun k => stale k && k.any (·.required) then none
  else
    let fresh (k : Option Candidate) : Option Candidate := if stale k then none else k
    some { l with blockKey := fresh l.blockKey, flowKeys := l.flowKeys.map fresh }

/-- Passes what stands between two tokens. Behind a line end outside of
brackets a key may start, and where it may, a tab must not stand. -/
def skipGap (l : Lexer) : Nat → Lexer
  | 0 => l
  | fuel + 1 =>
    let c := l.cursor.skipWhile fun ch => ch = ' ' || (ch = '\t' && (l.inFlow || !l.keyAllowed))
    let c := c.skipComment
    if c.atBreak then
      skipGap { l with cursor := c.takeBreak.2, keyAllowed := l.keyAllowed || !l.inFlow } fuel
    else { l with cursor := c }

/-! ## Directives -/

/-- A number of one to nine digits. -/
def number? (c : Cursor) : Option (Nat × Cursor) :=
  let (digits, c) := c.takeWhile fun ch => '0' ≤ ch && ch ≤ '9'
  if digits.isEmpty || 9 < digits.length then none
  else some (digits.foldl (fun n d => n * 10 + (d.toNat - 48)) 0, c)

/-- Whether a character may stand in a tag as it is. Some may only in the
tags between angle brackets and in directives. -/
def isTagChar (wide : Bool) (c : Char) : Bool :=
  isWord c || ";/?:@&=+$.!~*'()".toList.contains c || (wide && ",[]".toList.contains c)

/-- An octet behind a percent sign. -/
def octet? (c : Cursor) : Option (Nat × Cursor) := do
  let high ← (← c.ahead? 1) |> Text.Hex.digitValue?
  let low ← (← c.ahead? 2) |> Text.Hex.digitValue?
  if c.looksAt 0 '%' then some (high * 16 + low, c.skipMany 3) else none

/-- Octets that follow the first one of a character. -/
def trail? : Nat → Cursor → Option (List Char × Cursor)
  | 0, c => some ([], c)
  | n + 1, c => do
    let (o, c) ← octet? c
    if o / 64 ≠ 2 then none
    else
      let (rest, c) ← trail? n c
      some (Char.ofNat o :: rest, c)

/-- The octets of one character, each behind a percent sign. -/
def escapedOctets? (c : Cursor) : Option (List Char × Cursor) := do
  let (o, c) ← octet? c
  let more ←
    if o < 0x80 then some 0
    else if o / 32 = 6 then some 1
    else if o / 16 = 14 then some 2
    else if o / 8 = 30 then some 3
    else none
  let (rest, c) ← trail? more c
  some (Char.ofNat o :: rest, c)

/-- The characters of a tag, with escaped octets as characters of their own. -/
def tagText? (wide : Bool) : Nat → Cursor → Option (List Char × Cursor)
  | 0, c => some ([], c)
  | fuel + 1, c =>
    match c.here? with
    | none => some ([], c)
    | some ch =>
      if ch = '%' then do
        let (octets, c) ← escapedOctets? c
        let (rest, c) ← tagText? wide fuel c
        some (octets ++ rest, c)
      else if isTagChar wide ch then (tagText? wide fuel c.skip).map fun (s, c) => (ch :: s, c)
      else some ([], c)

/-- The characters of a tag, at least one. -/
def someTagText? (wide : Bool) (c : Cursor) : Option (List Char × Cursor) := do
  let (text, c) ← tagText? wide (c.rest.length + 1) c
  if text.isEmpty then none else some (text, c)

/-- An exclamation mark with a word behind it and, if there is one, the mark
that closes it. -/
def tagHandle? (c : Cursor) : Option (List Char × Cursor) :=
  if !c.looksAt 0 '!' then none
  else
    let (word, c) := c.skip.takeWhile isWord
    if c.looksAt 0 '!' then some ('!' :: word ++ ['!'], c.skip) else some ('!' :: word, c)

/-- Whether a handle is closed by a mark of its own. -/
def isClosed (handle : List Char) : Bool :=
  handle.length ≠ 1 && handle.getLast? = some '!'

/-- A directive behind its percent sign, without the rest of its line. -/
def directive? (c : Cursor) : Option (Token × Cursor) :=
  let (name, c) := c.takeWhile isWord
  if !c.isGapAt 0 then none
  else if name = "YAML".toList then do
    let (major, c) ← number? (c.skipWhile isBlank)
    if !c.looksAt 0 '.' then none
    else
      let (minor, c) ← number? c.skip
      some (.version major minor, c)
  else if name = "TAG".toList then do
    let (handle, c) ← tagHandle? (c.skipWhile isBlank)
    if !(handle = ['!'] || isClosed handle) || !c.atBlank then none
    else
      let (expansion, c) ← someTagText? true (c.skipWhile isBlank)
      if c.isGapAt 0 then some (.handle handle expansion, c) else none
  else none

/-- A directive with its line. -/
def directiveLine? (l : Lexer) : Option Lexer := do
  let l ← (l.closeTo (-1)).dropKey?
  let (t, c) ← directive? l.cursor.skip
  let c := (c.skipWhile isBlank).skipComment
  if c.atLineEnd then
    some { l.add t with cursor := c.takeBreak.2, keyAllowed := false }
  else none

/-! ## Tokens of a node -/

/-- The name of an anchor or alias. -/
def name? (c : Cursor) : Option (List Char × Cursor) :=
  let (name, c) := c.takeWhile isWord
  let ends := c.isGapAt 0 || c.here?.any fun ch => "?:,]\x7d%@\x60".toList.contains ch
  if name.isEmpty || !ends then none else some (name, c)

/-- A tag. A word without a closing mark is the suffix of the plain handle, and
a lone mark is a suffix without a handle. -/
def tag? (inFlow : Bool) (c : Cursor) : Option (Token × Cursor) := do
  let (t, c) ←
    if c.looksAt 1 '<' then do
      let (text, c) ← someTagText? true (c.skipMany 2)
      if c.looksAt 0 '>' then some (Token.tag [] text, c.skip) else none
    else do
      let (handle, c) ← tagHandle? c
      if isClosed handle then
        let (suffix, c) ← someTagText? false c
        some (.tag handle suffix, c)
      else
        let (more, c) ← tagText? false (c.rest.length + 1) c
        let suffix := handle.drop 1 ++ more
        some (if suffix.isEmpty then .tag [] ['!'] else .tag ['!'] suffix, c)
  if c.isGapAt 0 || (inFlow && c.looksAt 0 ',') then some (t, c) else none

/-- A token that starts a node and may be a key: it makes its place a
candidate, and no other key starts right behind it. -/
def node? (l : Lexer) (read : Cursor → Option (Token × Cursor)) : Option Lexer := do
  let l ← l.markKey?
  let (t, c) ← read l.cursor
  some { l.add t with cursor := c, keyAllowed := false }

/-- A plain scalar; behind a line end that it passed, a key may start. -/
def plainNode? (l : Lexer) : Option Lexer := do
  let l ← l.markKey?
  let (text, broken, c) ← plain? l.inFlow l.indent l.cursor
  some { l.add (.scalar .plain text) with cursor := c, keyAllowed := broken }

/-- A block scalar; behind it a key may start. -/
def blockNode? (l : Lexer) (style : Style) : Option Lexer := do
  let l ← l.dropKey?
  let (text, c) ← block? (style = .literal) l.indent l.cursor
  some { l.add (.scalar style text) with cursor := c, keyAllowed := true }

/-- Whether a plain scalar starts here. Three of the marks may begin one if
something else follows them. -/
def startsPlain (inFlow : Bool) (c : Cursor) : Bool :=
  match c.here? with
  | none => false
  | some ch =>
    if ch = '-' then !(c.ahead? 1).any isBlank
    else if ch = '?' || ch = ':' then !inFlow && !c.isGapAt 1
    else !(c.isGapAt 0 || "-?:,[]\x7b\x7d#&*!|>'\"%@\x60".toList.contains ch)

/-! ## Marks -/

/-- A mark that begins or ends a document. -/
def documentMark? (l : Lexer) (t : Token) : Option Lexer :=
  (l.closeTo (-1)).dropKey?.map fun l => { l.take t 3 with keyAllowed := false }

/-- An opening bracket. -/
def openFlow? (l : Lexer) (t : Token) : Option Lexer :=
  l.markKey?.map fun l =>
    { l.take t 1 with keyAllowed := true, flowKeys := none :: l.flowKeys }

/-- A closing bracket. -/
def closeFlow? (l : Lexer) (t : Token) : Option Lexer :=
  l.dropKey?.map fun l =>
    { l.take t 1 with keyAllowed := false, flowKeys := l.flowKeys.drop 1 }

/-- A comma. -/
def comma? (l : Lexer) : Option Lexer :=
  l.dropKey?.map fun l => { l.take .comma 1 with keyAllowed := true }

/-- Opens a block here with a mark, where one may start. -/
def markBlock? (l : Lexer) (t : Token) : Option Lexer :=
  if l.inFlow then some l
  else if l.keyAllowed then some (l.openBlock l.cursor.column l.tokens.size t)
  else none

/-- The dash before an item. -/
def item? (l : Lexer) : Option Lexer := do
  let l ← l.markBlock? .blockSequence
  let l ← l.dropKey?
  some { l.take .item 1 with keyAllowed := true }

/-- The question mark before a key. -/
def key? (l : Lexer) : Option Lexer := do
  let l ← l.markBlock? .blockMapping
  let l ← l.dropKey?
  some { l.take .key 1 with keyAllowed := !l.inFlow }

/-- The colon before a value, which makes a key of a candidate. -/
def value? (l : Lexer) : Option Lexer :=
  match l.candidate with
  | some k =>
    let l := { l with tokens := l.tokens.insertIdxIfInBounds k.before .key }
    let l := (l.openBlock k.column k.before .blockMapping).setCandidate none
    some { l.take .value 1 with keyAllowed := false }
  | none => do
    let l ← l.markBlock? .blockMapping
    some { l.take .value 1 with keyAllowed := !l.inFlow }

/-- The next token with what comes before it. The text must not be at its
end. -/
def token? (l : Lexer) : Option Lexer :=
  let c := l.cursor
  let gap := c.isGapAt 1
  match c.here? with
  | none => none
  | some ch =>
    if c.column = 0 && ch = '%' then l.directiveLine?
    else if c.atMark '-' then l.documentMark? .documentStart
    else if c.atMark '.' then l.documentMark? .documentEnd
    else if ch = '[' then l.openFlow? .listStart
    else if ch = '\x7b' then l.openFlow? .mapStart
    else if ch = ']' then l.closeFlow? .listEnd
    else if ch = '\x7d' then l.closeFlow? .mapEnd
    else if ch = ',' then l.comma?
    else if ch = '-' && gap then l.item?
    else if ch = '?' && (l.inFlow || gap) then l.key?
    else if ch = ':' && (l.inFlow || gap) then l.value?
    else if ch = '*' then l.node? fun c => (name? c.skip).map fun (n, c) => (.alias n, c)
    else if ch = '&' then l.node? fun c => (name? c.skip).map fun (n, c) => (.anchor n, c)
    else if ch = '!' then l.node? (tag? l.inFlow)
    else if ch = '|' && !l.inFlow then l.blockNode? .literal
    else if ch = '>' && !l.inFlow then l.blockNode? .folded
    else if ch = '\'' then
      l.node? fun c => (quoted? ch c).map fun (s, c) => (.scalar .singleQuoted s, c)
    else if ch = '"' then
      l.node? fun c => (quoted? ch c).map fun (s, c) => (.scalar .doubleQuoted s, c)
    else if startsPlain l.inFlow c then l.plainNode?
    else none

/-- Reads up to the end of the text. -/
def run? (l : Lexer) : Nat → Option Lexer
  | 0 => none
  | fuel + 1 => do
    let l ← (l.skipGap (l.cursor.rest.length + 1)).dropStale?
    let l := l.closeTo l.cursor.column
    if l.cursor.atEnd then (l.closeTo (-1)).dropKey?
    else
      let l ← l.token?
      run? l fuel

end Lexer

/-- The tokens of a text, which may begin with a byte order mark. -/
def tokens? (text : List Char) : Option (List Token) :=
  let text := match text with
    | c :: rest => if c.toNat = 0xFEFF then rest else c :: rest
    | [] => []
  if !text.all isAllowed then none
  else
    (Lexer.run? { cursor := .start text } (text.length + 2)).map fun l => l.tokens.toList

end Colloquy.Yaml
