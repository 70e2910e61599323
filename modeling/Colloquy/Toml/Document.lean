import Colloquy.Toml.Scalar
/-!
# TOML documents

A document is read line by line: key and value, header, or repeated header.
`descend?` walks from a table along the parts of a key, makes the tables that
are missing and refuses to go through a value. A header defines each table
once; a dotted key defines the tables on its way and adds to no table that is
defined elsewhere.
-/

namespace Colloquy.Toml

/-- How deep lists and tables that are written as values may stand in each
other. -/
def depthLimit : Nat := 79

/-- Changes the table at the end of a path. Missing tables on the way come
about as `origin` says; a dotted key does not go through a table that has been
defined. The last of repeated tables stands for all of them. -/
def descend? (origin : Origin) (change : Origin → Entries → Option Entries) :
    List String → Origin → Entries → Option Entries
  | [], here, entries => change here entries
  | key :: path, _, entries =>
    match lookup key entries with
    | none =>
      (descend? origin change path origin []).map fun sub => put key (.table origin sub) entries
    | some (.table o sub) =>
      if o = .written || (origin = .dotted && !o.isImplicit) then none
      else (descend? origin change path o sub).map fun sub => put key (.table o sub) entries
    | some (.tables elements) =>
      match elements.reverse with
      | .table o sub :: before =>
        if origin = .dotted && !o.isImplicit then none
        else
          (descend? origin change path o sub).map fun sub =>
            put key (.tables (before.reverse ++ [.table o sub])) entries
      | _ => none
    | some _ => none

/-- Writes a new value under the last part of a key. The table that takes it
was made by a dotted key exactly when the key is dotted. -/
def insert? (key : List String) (value : Value) (entries : Entries) : Option Entries :=
  match key.reverse with
  | [] => none
  | last :: before =>
    let path := before.reverse
    descend? .dotted (fun here entries =>
      if (here = .dotted) = path.isEmpty then none
      else
        match lookup last entries with
        | some _ => none
        | none => some (put last value entries)) path .header entries

/-- A text without its closing bracket, if it starts with it. -/
def closes? (bracket : Char) : List Char → Option (List Char)
  | [] => none
  | c :: rest => if c = bracket then some rest else none

mutual

/-- A value. -/
def value? : Nat → Nat → List Char → Option (Value × List Char)
  | 0, _, _ => none
  | fuel + 1, depth, s =>
    match s with
    | [] => none
    | c :: rest =>
      if c = '"' || c = '\'' then
        (text? s).map fun (t, rest) => (.text (String.ofList t), rest)
      else if c = '[' then
        if depth = 0 then none
        else (items? fuel (depth - 1) (skipLines rest.length rest)).map fun (xs, rest) =>
          (.list xs, rest)
      else if c = '\x7b' then
        if depth = 0 then none
        else do
          let (entries, rest) ← written? fuel (depth - 1) rest
          some (.table .written entries, rest)
      else if c = 't' then (Text.afterPrefix? "rue".toList rest).map fun rest => (.bool true, rest)
      else if c = 'f' then
        (Text.afterPrefix? "alse".toList rest).map fun rest => (.bool false, rest)
      else numberOrMoment? s

/-- The items of a list, which may stand on lines of their own; a comma may
follow the last. -/
def items? : Nat → Nat → List Char → Option (List Value × List Char)
  | 0, _, _ => none
  | fuel + 1, depth, s =>
    match closes? ']' s with
    | some rest => some ([], rest)
    | none => do
      let (v, rest) ← value? fuel depth s
      match skipLines rest.length rest with
      | ',' :: rest =>
        let (vs, rest) ← items? fuel depth (skipLines rest.length rest)
        some (v :: vs, rest)
      | rest => (closes? ']' rest).map fun rest => ([v], rest)

/-- The entries of a table that is written on one line. -/
def written? : Nat → Nat → List Char → Option (Entries × List Char)
  | 0, _, _ => none
  | fuel + 1, depth, s =>
    match closes? '\x7d' (skipSpace s) with
    | some rest => some ([], rest)
    | none => writtenEntries? fuel depth [] s

/-- The entries behind those that have been read. -/
def writtenEntries? : Nat → Nat → Entries → List Char → Option (Entries × List Char)
  | 0, _, _, _ => none
  | fuel + 1, depth, entries, s => do
    let (key, rest) ← key? s
    let rest ← closes? '=' rest
    let (v, rest) ← value? fuel depth (skipSpace rest)
    let entries ← insert? key v entries
    match skipSpace rest with
    | ',' :: rest => writtenEntries? fuel depth entries rest
    | rest => (closes? '\x7d' rest).map fun rest => (entries, rest)

end

/-- A document up to some line: the finished tables, and the table under the
latest header. -/
structure Draft where
  root : Entries
  /-- The header's key; empty before the first header. -/
  path : List String
  isRepeated : Bool
  current : Entries

namespace Draft

/-- A document without lines. -/
def empty : Draft := ⟨[], [], false, []⟩

/-- The document with the table under the latest header put in its place. -/
def finish? (d : Draft) : Option Entries :=
  match d.path.reverse with
  | [] => some d.current
  | last :: before =>
    let table := Value.table .header d.current
    descend? .implied (fun _ entries =>
      match lookup last entries with
      | none => some (put last (if d.isRepeated then .tables [table] else table) entries)
      | some (.tables elements) =>
        if d.isRepeated then some (put last (.tables (elements ++ [table])) entries) else none
      | some _ => none) before.reverse .header d.root

/-- The entries of a table that only other headers have implied, and the
document without it; nothing when the key is taken otherwise. -/
def takeOver? (root : Entries) (before : List String) (last : String) :
    Option (Entries × Entries) := do
  let root ← descend? .implied (fun _ entries => some entries) before .header root
  let found := followed root before
  match found.bind (lookup last) with
  | none => some ([], root)
  | some (.table .implied sub) =>
    let root ← descend? .implied (fun _ entries => some (entries.filter fun e => e.1 ≠ last))
      before .header root
    some (sub, root)
  | some _ => none
where
  followed : Entries → List String → Option Entries
    | entries, [] => some entries
    | entries, key :: path =>
      match lookup key entries with
      | some (.table _ sub) => followed sub path
      | some (.tables elements) =>
        match elements.getLast? with
        | some (.table _ sub) => followed sub path
        | _ => none
      | _ => none

/-- The document behind a header. -/
def header? (d : Draft) (key : List String) : Option Draft := do
  let root ← d.finish?
  match key.reverse with
  | [] => none
  | last :: before =>
    let (current, root) ← takeOver? root before.reverse last
    some ⟨root, key, false, current⟩

/-- The document behind a repeated header. -/
def repeated? (d : Draft) (key : List String) : Option Draft := do
  let root ← d.finish?
  match key.reverse with
  | [] => none
  | last :: before =>
    let root ← descend? .implied (fun _ entries =>
      match lookup last entries with
      | none => some entries
      | some (.tables _) => some entries
      | some _ => none) before.reverse .header root
    some ⟨root, key, true, []⟩

/-- The document behind a line of key and value. -/
def entry? (d : Draft) (key : List String) (value : Value) : Option Draft :=
  (insert? key value d.current).map fun current => { d with current := current }

end Draft

/-- A header behind its opening bracket, with the end of its line. -/
def headerLine? (d : Draft) (s : List Char) : Option (Draft × List Char) := do
  match s with
  | '[' :: rest =>
    let (key, rest) ← key? rest
    let rest ← closes? ']' rest
    let rest ← closes? ']' rest
    let rest ← endOfLine? rest
    let d ← d.repeated? key
    some (d, rest)
  | rest =>
    let (key, rest) ← key? rest
    let rest ← closes? ']' rest
    let rest ← endOfLine? rest
    let d ← d.header? key
    some (d, rest)

/-- One line of a document. -/
def line? (d : Draft) (s : List Char) : Option (Draft × List Char) :=
  match s with
  | '[' :: rest => headerLine? d rest
  | '#' :: _ => (endOfLine? s).map fun rest => (d, rest)
  | '\n' :: rest => some (d, rest)
  | '\r' :: _ => (lineEnd? s).map fun rest => (d, rest)
  | s => do
    let (key, rest) ← key? s
    let rest ← closes? '=' rest
    let rest := skipSpace rest
    let (value, rest) ← value? (2 * rest.length + 8) depthLimit rest
    let rest ← endOfLine? rest
    let d ← d.entry? key value
    some (d, rest)

/-- The lines of a document. -/
def lines? : Nat → Draft → List Char → Option Entries
  | 0, _, _ => none
  | fuel + 1, d, s =>
    match skipSpace s with
    | [] => d.finish?
    | s =>
      match line? d s with
      | none => none
      | some (d, rest) => lines? fuel d rest

/-- The root table of a document, which a byte order mark may precede. -/
def parse? (text : String) : Option Entries :=
  let s := text.toList
  let s := if s.head? = some (Char.ofNat 0xFEFF) then s.drop 1 else s
  lines? (s.length + 1) .empty s

end Colloquy.Toml
