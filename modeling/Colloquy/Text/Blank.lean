/-!
# Blanks, trimming and words

A blank is a character with the Unicode property White_Space. Chat text is
trimmed and split into words by that property, and not by the six ASCII
blanks alone. Every function works on `List Char`, where each is one fold
over the text; `trim` and `wordCount` lift them to `String`.
-/

namespace Colloquy.Text

/-- The code points with the property White_Space. -/
def isBlank (c : Char) : Bool :=
  let n := c.toNat
  (9 ≤ n && n ≤ 13) || n = 0x20 || n = 0x85 || n = 0xA0 || n = 0x1680 ||
    (0x2000 ≤ n && n ≤ 0x200A) || n = 0x2028 || n = 0x2029 || n = 0x202F ||
    n = 0x205F || n = 0x3000

/-- A text without the blanks it starts with. -/
def trimStart (s : List Char) : List Char :=
  s.dropWhile isBlank

/-- A text without the blanks it ends with. -/
def trimEnd (s : List Char) : List Char :=
  (s.reverse.dropWhile isBlank).reverse

/-- A text without the blanks around it. -/
def trimChars (s : List Char) : List Char :=
  trimEnd (trimStart s)

/-- A text without the blanks around it. -/
def trim (s : String) : String :=
  String.ofList (trimChars s.toList)

/-- Whether a text holds nothing but blanks. -/
def isBlankText (s : String) : Bool :=
  s.toList.all isBlank

/-- The number of words that start in a text, when `inside` says whether the
character before it belongs to a word. -/
def wordStarts (inside : Bool) : List Char → Nat
  | [] => 0
  | c :: rest =>
    if isBlank c then wordStarts false rest
    else if inside then wordStarts true rest
    else wordStarts true rest + 1

/-- The number of maximal runs of characters that are not blank. -/
def wordCount (s : String) : Nat :=
  wordStarts false s.toList

/-- Cuts a text at every occurrence of one character. A text without it is
one piece. -/
def splitOnChar (sep : Char) : List Char → List (List Char)
  | [] => [[]]
  | c :: rest =>
    if c = sep then [] :: splitOnChar sep rest
    else
      match splitOnChar sep rest with
      | [] => [[c]]
      | piece :: pieces => (c :: piece) :: pieces

/-- Whether one text occurs at the start of another, and what follows it. -/
def afterPrefix? : List Char → List Char → Option (List Char)
  | [], s => some s
  | _ :: _, [] => none
  | p :: ps, c :: cs => if p = c then afterPrefix? ps cs else none

/-- Cuts a text in two around the first occurrence of a needle: what stands
before it, and what follows it. -/
def cutAt? (needle : List Char) : List Char → Option (List Char × List Char)
  | [] => if needle.isEmpty then some ([], []) else none
  | c :: rest =>
    match afterPrefix? needle (c :: rest) with
    | some after => some ([], after)
    | none => (cutAt? needle rest).map fun (before, after) => (c :: before, after)

end Colloquy.Text
