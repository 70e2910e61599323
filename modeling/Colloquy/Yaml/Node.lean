import Colloquy.Table
import Colloquy.Yaml.Token
/-!
# YAML nodes

The tokens of a text make at most one document, a tree of nodes. A node left
out is an empty plain scalar. An anchor's number is the count of the names
known before it; a name that returns gets a new number, and an alias means the
number that its name has at that place.
-/

namespace Colloquy.Yaml

/-- A node. -/
inductive Node where
  | alias (number : Nat)
  | scalar (anchor : Option Nat) (tag : Option (List Char)) (style : Style) (text : List Char)
  | list (anchor : Option Nat) (items : List Node)
  | mapping (anchor : Option Nat) (pairs : List (Node × Node))

instance : Inhabited Node := ⟨.alias 0⟩

/-- What a node that is left out stands for. -/
def Node.blank : Node := .scalar none none .plain []

/-- The tokens ahead, and the numbers of the anchors so far. -/
structure Feed where
  tokens : List Token
  anchors : Table (List Char) Nat := .empty

namespace Feed

/-- The next token. -/
def head? (f : Feed) : Option Token := f.tokens.head?

/-- Whether the next token is one of some. -/
def sees (f : Feed) (ts : List Token) : Bool := f.head?.any ts.contains

/-- The feed without its next token. -/
def skip (f : Feed) : Feed := { f with tokens := f.tokens.drop 1 }

/-- An anchor of a name; gives its number. -/
def define (f : Feed) (name : List Char) : Nat × Feed :=
  let n := f.anchors.size
  (n, { f with anchors := f.anchors.put name n })

/-- The feed behind its next token, if that is the expected one. -/
def expect? (f : Feed) (t : Token) : Option Feed :=
  if f.head? = some t then some f.skip else none

end Feed

/-- What the handles of tags stand for. -/
abbrev Handles := List (List Char × List Char)

/-- The handles that a document need not declare. -/
def standardHandles : Handles :=
  [(['!'], ['!']), ("!!".toList, "tag:yaml.org,2002:".toList)]

/-- The full form of a tag. -/
def resolveTag? (handles : Handles) (handle suffix : List Char) : Option (List Char) :=
  if handle.isEmpty then some suffix
  else (handles.find? fun h => h.1 = handle).map fun h => h.2 ++ suffix

/-- What stands before a node: an anchor and a tag, in either order. -/
structure Attributes where
  anchor : Option (List Char) := none
  tag : Option (List Char) := none

/-- The attributes here, each at most once. -/
def attributes? (handles : Handles) (f : Feed) : Option (Attributes × Feed) :=
  match f.tokens with
  | .anchor name :: .tag handle suffix :: rest =>
    (resolveTag? handles handle suffix).map fun t => (⟨some name, some t⟩, { f with tokens := rest })
  | .tag handle suffix :: .anchor name :: rest =>
    (resolveTag? handles handle suffix).map fun t => (⟨some name, some t⟩, { f with tokens := rest })
  | .anchor name :: rest => some (⟨some name, none⟩, { f with tokens := rest })
  | .tag handle suffix :: rest =>
    (resolveTag? handles handle suffix).map fun t => (⟨none, some t⟩, { f with tokens := rest })
  | _ => some ({}, f)

/-- The number of an anchor that may be there. -/
def Attributes.define (a : Attributes) (f : Feed) : Option Nat × Feed :=
  match a.anchor with
  | none => (none, f)
  | some name =>
    let (n, f) := f.define name
    (some n, f)

mutual

/-- A node. In a block, blocks may follow; `dashes` says whether the items of a
list may start right here. -/
def node? (handles : Handles) (inBlock dashes : Bool) : Nat → Feed → Option (Node × Feed)
  | 0, _ => none
  | fuel + 1, f =>
    match f.tokens with
    | .alias name :: _ => (f.anchors.get? name).map fun n => (.alias n, f.skip)
    | _ =>
      match attributes? handles f with
      | none => none
      | some (attributes, f) =>
        let (anchor, marked) := attributes.define f
        match f.head? with
        | some (.scalar style text) =>
          let tag := if attributes.tag = some ['!'] then none else attributes.tag
          some (.scalar anchor tag style text, marked.skip)
        | some .listStart =>
          (flowItems? handles true fuel marked.skip).map fun (xs, f) => (.list anchor xs, f)
        | some .mapStart =>
          (flowPairs? handles true fuel marked.skip).map fun (ps, f) => (.mapping anchor ps, f)
        | next =>
          if dashes && next = some .item then
            (dashedItems? handles fuel marked).map fun (xs, f) => (.list anchor xs, f)
          else if inBlock && next = some .blockSequence then
            (blockItems? handles fuel marked.skip).map fun (xs, f) => (.list anchor xs, f)
          else if inBlock && next = some .blockMapping then
            (blockPairs? handles fuel marked.skip).map fun (ps, f) => (.mapping anchor ps, f)
          else if attributes.anchor.isSome || attributes.tag.isSome then
            some (.scalar anchor attributes.tag .plain [], marked)
          else none

/-- A node, unless one of the given tokens comes instead of it. -/
def nodeBefore? (handles : Handles) (inBlock dashes : Bool) (stops : List Token) :
    Nat → Feed → Option (Node × Feed)
  | 0, _ => none
  | fuel + 1, f =>
    if f.sees stops then some (.blank, f) else node? handles inBlock dashes fuel f

/-- The items of a block, up to its end. -/
def blockItems? (handles : Handles) : Nat → Feed → Option (List Node × Feed)
  | 0, _ => none
  | fuel + 1, f =>
    match f.head? with
    | some .item => do
      let (x, f) ← nodeBefore? handles true false [.item, .blockEnd] fuel f.skip
      let (xs, f) ← blockItems? handles fuel f
      some (x :: xs, f)
    | some .blockEnd => some ([], f.skip)
    | _ => none

/-- The items of a list that is not indented further than its key. -/
def dashedItems? (handles : Handles) : Nat → Feed → Option (List Node × Feed)
  | 0, _ => none
  | fuel + 1, f =>
    match f.head? with
    | some .item => do
      let (x, f) ← nodeBefore? handles true false [.item, .key, .value, .blockEnd] fuel f.skip
      let (xs, f) ← dashedItems? handles fuel f
      some (x :: xs, f)
    | _ => some ([], f)

/-- The pairs of a block, up to its end. -/
def blockPairs? (handles : Handles) : Nat → Feed → Option (List (Node × Node) × Feed)
  | 0, _ => none
  | fuel + 1, f =>
    match f.head? with
    | some .key => do
      let (k, f) ← nodeBefore? handles true true [.key, .value, .blockEnd] fuel f.skip
      let (v, f) ←
        if f.sees [.value] then
          nodeBefore? handles true true [.key, .value, .blockEnd] fuel f.skip
        else some (.blank, f)
      let (ps, f) ← blockPairs? handles fuel f
      some ((k, v) :: ps, f)
    | some .blockEnd => some ([], f.skip)
    | _ => none

/-- The items between brackets, each after the first behind a comma, up to the
closing bracket. A marked key makes an item of one pair; where the key itself
is missing, the token in its place is passed over. -/
def flowItems? (handles : Handles) (isFirst : Bool) : Nat → Feed → Option (List Node × Feed)
  | 0, _ => none
  | fuel + 1, f => do
    if f.sees [.listEnd] then some ([], f.skip)
    else
      let f ← if isFirst then some f else f.expect? .comma
      if f.sees [.listEnd] then some ([], f.skip)
      else
        let (x, f) ←
          if f.sees [.key] then do
            let f := f.skip
            let (k, f) ←
              if f.sees [.value, .comma, .listEnd] then some (.blank, f.skip)
              else node? handles false false fuel f
            let (v, f) ← flowValue? handles .listEnd fuel f
            some (.mapping none [(k, v)], f)
          else node? handles false false fuel f
        let (xs, f) ← flowItems? handles false fuel f
        some (x :: xs, f)

/-- The value behind a colon between brackets, if there is one. -/
def flowValue? (handles : Handles) (close : Token) : Nat → Feed → Option (Node × Feed)
  | 0, _ => none
  | fuel + 1, f =>
    if f.sees [.value] then nodeBefore? handles false false [.comma, close] fuel f.skip
    else some (.blank, f)

/-- The pairs between braces, each after the first behind a comma, up to the
closing brace. A key without a mark has no value. -/
def flowPairs? (handles : Handles) (isFirst : Bool) :
    Nat → Feed → Option (List (Node × Node) × Feed)
  | 0, _ => none
  | fuel + 1, f => do
    if f.sees [.mapEnd] then some ([], f.skip)
    else
      let f ← if isFirst then some f else f.expect? .comma
      if f.sees [.mapEnd] then some ([], f.skip)
      else
        let (p, f) ←
          if f.sees [.key] then do
            let (k, f) ← nodeBefore? handles false false [.value, .comma, .mapEnd] fuel f.skip
            let (v, f) ← flowValue? handles .mapEnd fuel f
            some ((k, v), f)
          else (node? handles false false fuel f).map fun (k, f) => ((k, .blank), f)
        let (ps, f) ← flowPairs? handles false fuel f
        some (p :: ps, f)

end

/-- The directives at the start of a document and the tokens behind them. A
handle may be declared once, and the version has to be 1.1 or 1.2. -/
def directives? (hasVersion : Bool) (handles : Handles) :
    List Token → Option (Handles × List Token)
  | .version major minor :: rest =>
    if hasVersion || major ≠ 1 || !(minor = 1 || minor = 2) then none
    else directives? true handles rest
  | .handle name expansion :: rest =>
    if handles.any fun h => h.1 = name then none
    else directives? hasVersion ((name, expansion) :: handles) rest
  | rest => some (handles, rest)

/-- The root of the only document of a text; a text without a document has
none. -/
def root? (tokens : List Token) : Option (Option Node) :=
  let isExplicit := match tokens with
    | .version _ _ :: _ => true
    | .handle _ _ :: _ => true
    | .documentStart :: _ => true
    | _ => false
  let fuel := 4 * tokens.length + 8
  let rest? :=
    if tokens.isEmpty then some (none, [])
    else if isExplicit then do
      let (handles, rest) ← directives? false [] tokens
      match rest with
      | .documentStart :: rest =>
        let ends := match rest with
          | [] => true
          | .version _ _ :: _ => true
          | .handle _ _ :: _ => true
          | .documentStart :: _ => true
          | .documentEnd :: _ => true
          | _ => false
        if ends then some (some .blank, rest)
        else
          let (n, f) ← node? (handles ++ standardHandles) true false fuel { tokens := rest }
          some (some n, f.tokens)
      | _ => none
    else
      (node? standardHandles true false fuel { tokens := tokens }).map fun (n, f) =>
        (some n, f.tokens)
  match rest? with
  | some (n, rest) => if rest.all (· = .documentEnd) then some n else none
  | none => none

mutual

/-- The nodes with anchors, in the order in which they begin. -/
def Node.anchored : Node → List (Nat × Node)
  | .alias _ => []
  | .scalar (some n) tag style text => [(n, .scalar (some n) tag style text)]
  | .scalar none _ _ _ => []
  | .list anchor items =>
    (match anchor with
      | some n => [(n, .list anchor items)]
      | none => []) ++ anchoredItems items
  | .mapping anchor pairs =>
    (match anchor with
      | some n => [(n, .mapping anchor pairs)]
      | none => []) ++ anchoredPairs pairs

/-- The nodes with anchors in a list. -/
def Node.anchoredItems : List Node → List (Nat × Node)
  | [] => []
  | x :: rest => x.anchored ++ Node.anchoredItems rest

/-- The nodes with anchors in pairs. -/
def Node.anchoredPairs : List (Node × Node) → List (Nat × Node)
  | [] => []
  | (k, v) :: rest => k.anchored ++ v.anchored ++ Node.anchoredPairs rest

end

end Colloquy.Yaml
