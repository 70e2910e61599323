import Colloquy.Text.Blank
import Colloquy.Text.Percent
/-!
# Where the program keeps its data

The data directory comes from the environment, and the settings file and the
database lie in it. Paths are texts with `/` between their parts.
-/

namespace Colloquy.Place

/-- A path under a directory. An absolute path stands for itself. -/
def join (dir path : String) : String :=
  if path.toList.head? = some '/' then path
  else if dir = "" || dir.toList.getLast? = some '/' then dir ++ path
  else dir ++ "/" ++ path

/-- The variable that names the data directory. -/
def dataDirVariable : String := "PARLEY_DATA_DIR"

/-- The home directory: the one that the environment names, else that of the
account, else the current one. -/
def homeDir (named account : Option String) : String :=
  match named with
  | some home => if home = "" then account.getD "." else home
  | none => account.getD "."

/-- The data directory: the one that its variable names, even if empty, or a
hidden directory in the home directory. -/
def dataDir (named home account : Option String) : String :=
  match named with
  | some dir => dir
  | none => join (homeDir home account) ".parley"

/-- The settings file of a data directory. -/
def settingsFile (dir : String) : String := join dir "parley.toml"

/-- What the address of a database begins with. -/
def databaseScheme : String := "sqlite://"

/-- The address of a data directory's database. -/
def databaseUrl (dir : String) : String :=
  databaseScheme ++ dir ++ "/parley.db"

/-- A text without a beginning, however often it stands there. -/
def dropAll (start : List Char) : Nat → List Char → List Char
  | 0, s => s
  | fuel + 1, s =>
    match Text.afterPrefix? start s with
    | some rest => dropAll start fuel rest
    | none => s

/-- Why an address of a database names no file. -/
inductive AddressFault where
  /-- A question mark starts parameters, and this is none of those known. -/
  | unknownParameter (name : String)
  /-- The percent escapes stand for something else than text. -/
  | notText
deriving DecidableEq, Repr

/-- The wording of a fault of an address. -/
def AddressFault.message : AddressFault → String
  | .unknownParameter name =>
    "unknown query parameter `" ++ name ++ "` while parsing connection URL"
  | .notText => "invalid utf-8 sequence"

/-- An address of a database without its scheme. -/
def withoutScheme (url : String) : List Char :=
  dropAll "sqlite:".toList url.length
    (dropAll databaseScheme.toList url.length url.toList)

/-- The file that an address of a database opens: what stands behind the
scheme, with percent escapes. A question mark starts parameters, of which the
end of the data directory's address is none. -/
def openedFile (url : String) : Except AddressFault String :=
  match Text.cutAt? ['?'] (withoutScheme url) with
  | some (_, parameters) =>
    .error (.unknownParameter (String.ofList (parameters.takeWhile fun c => c ≠ '=' && c ≠ '&')))
  | none =>
    match Text.Percent.decode? (String.ofList (withoutScheme url)) with
    | some file => .ok file
    | none => .error .notText

end Colloquy.Place
