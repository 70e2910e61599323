import Colloquy.Service.Exchange
/-!
# Media types

A media type has two names with a slash between them and may have parameters
behind semicolons. The second name may end in a suffix behind a plus sign.
Only the forms of JSON are told from the others here.
-/

namespace Colloquy.Service.MediaType

/-- Whether a character may be part of a name. -/
def isToken (c : Char) : Bool :=
  c.isAlphanum || "!#$%&'*+-.^_\x60|~".toList.contains c

/-- Whether a character may stand in the quotes of a parameter. -/
def isQuotable (c : Char) : Bool :=
  31 < c.toNat && c.toNat < 127

/-- What follows the quotes of a parameter: blanks, and another parameter. -/
def afterQuotes? (s : List Char) : Option (List Char) :=
  match s.dropWhile (· = ' ') with
  | [] => some []
  | ';' :: rest => some rest
  | _ => none

/-- What follows the closing quote of a value. The first character belongs to
the value in any case. -/
def closeQuotes? : List Char → Option (List Char)
  | [] => none
  | c :: rest =>
    if !isQuotable c then none
    else
      match rest.dropWhile fun c => isQuotable c && c ≠ '"' with
      | '"' :: rest => some rest
      | _ => none

/-- The parameters that follow one. -/
def parameter? (s : List Char) : Option (List Char) :=
  let s := s.dropWhile (· = ' ')
  if s.isEmpty then some []
  else
    match s.span isToken with
    | (_ :: _, '=' :: '"' :: value) => (closeQuotes? value).bind afterQuotes?
    | (_ :: _, '=' :: value) =>
      match value.span isToken with
      | (_, []) => some []
      | (_ :: _, ';' :: rest) => some rest
      | _ => none
    | _ => none

/-- Whether a text is a list of parameters. -/
def areParameters : Nat → List Char → Bool
  | 0, s => s.isEmpty
  | fuel + 1, s =>
    s.isEmpty || match parameter? s with
      | some rest => areParameters fuel rest
      | none => false

/-- A name up to its last plus sign and what follows that. A sign at the start
is part of the name. -/
def splitSuffix (name : List Char) : List Char × Option (List Char) :=
  match (name.drop 1).reverse.span (· ≠ '+') with
  | (_, []) => (name, none)
  | (suffix, _ :: before) => (name.take 1 ++ before.reverse, some suffix.reverse)

/-- Whether a media type is a form of JSON. -/
def isJson (text : String) : Bool :=
  match text.toList.span isToken with
  | (first, '/' :: rest) =>
    let (second, rest) := rest.span isToken
    let isWell := match rest with
      | [] => true
      | ';' :: parameters => !second.isEmpty && areParameters parameters.length parameters
      | _ => false
    let is (s : List Char) (word : String) : Bool := lowerCase (String.ofList s) = word
    let (name, suffix) := splitSuffix second
    isWell && is first "application" && (is name "json" || suffix.any fun s => is s "json")
  | _ => false

end Colloquy.Service.MediaType
