import Colloquy.Json.Basic
import Colloquy.Text.Hex
/-!
# JSON text

Two layouts of one value: `compact` has no space at all, and `pretty` puts
every item on a line of its own, two spaces deeper than what holds it. In a
text the quote, the backslash and the control characters are escaped, and
nothing else. A number that is not finite is written as null.
-/

namespace Colloquy.Json

/-- The escaped form of one character of a text. -/
def escapeChar (c : Char) : List Char :=
  if c = '"' then ['\\', '"']
  else if c = '\\' then ['\\', '\\']
  else if c = '\n' then ['\\', 'n']
  else if c = '\r' then ['\\', 'r']
  else if c = '\t' then ['\\', 't']
  else if c.toNat = 8 then ['\\', 'b']
  else if c.toNat = 12 then ['\\', 'f']
  else if c.toNat < 32 then
    ['\\', 'u', '0', '0', Text.Hex.digit (c.toNat / 16), Text.Hex.digit (c.toNat % 16)]
  else [c]

/-- A text between quotes. -/
def quote (s : String) : List Char :=
  '"' :: (s.toList.flatMap escapeChar ++ ['"'])

/-- The text of a value that holds no other. -/
def scalar : Json → List Char
  | .null => "null".toList
  | .bool b => (if b then "true" else "false").toList
  | .int n => (toString n).toList
  | .float x => if x.isFinite then (Number.plainText x).toList else "null".toList
  | .text s => quote s
  | .list _ => ['[', ']']
  | .object _ => ['\x7b', '\x7d']

mutual

/-- The characters of a value without any layout. -/
def compactChars : Json → List Char
  | .list [] => ['[', ']']
  | .list (x :: xs) => '[' :: (compactChars x ++ compactItems xs)
  | .object [] => ['\x7b', '\x7d']
  | .object ((name, value) :: ms) =>
    '\x7b' :: (quote name ++ ':' :: (compactChars value ++ compactMembers ms))
  | j => scalar j

/-- The items after the first, each behind a comma, and the closing bracket. -/
def compactItems : List Json → List Char
  | [] => [']']
  | x :: xs => ',' :: (compactChars x ++ compactItems xs)

/-- The members after the first, each behind a comma, and the closing brace. -/
def compactMembers : List (String × Json) → List Char
  | [] => ['\x7d']
  | (name, value) :: ms => ',' :: (quote name ++ ':' :: (compactChars value ++ compactMembers ms))

end

/-- The text of a value without any layout. -/
def compact (j : Json) : String :=
  String.ofList (compactChars j)

/-- A line break and the indentation of a depth. -/
def newline (depth : Nat) : List Char :=
  '\n' :: List.replicate (2 * depth) ' '

mutual

/-- The characters of a value laid out at a depth. -/
def prettyChars (depth : Nat) : Json → List Char
  | .list [] => ['[', ']']
  | .list (x :: xs) =>
    '[' :: (newline (depth + 1) ++ prettyChars (depth + 1) x ++ prettyItems depth xs)
  | .object [] => ['\x7b', '\x7d']
  | .object ((name, value) :: ms) =>
    '\x7b' :: (newline (depth + 1) ++ quote name ++ [':', ' '] ++ prettyChars (depth + 1) value ++
      prettyMembers depth ms)
  | j => scalar j

/-- The items after the first, each on a line of its own. -/
def prettyItems (depth : Nat) : List Json → List Char
  | [] => newline depth ++ [']']
  | x :: xs => ',' :: (newline (depth + 1) ++ prettyChars (depth + 1) x ++ prettyItems depth xs)

/-- The members after the first, each on a line of its own. -/
def prettyMembers (depth : Nat) : List (String × Json) → List Char
  | [] => newline depth ++ ['\x7d']
  | (name, value) :: ms =>
    ',' :: (newline (depth + 1) ++ quote name ++ [':', ' '] ++ prettyChars (depth + 1) value ++
      prettyMembers depth ms)

end

/-- The text of a value with one item a line. -/
def pretty (j : Json) : String :=
  String.ofList (prettyChars 0 j)

end Colloquy.Json
