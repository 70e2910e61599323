import Colloquy.Text.Blank
import Colloquy.Text.Utf8
/-!
# Files in a folder

A folder is known by its name and what is under it: files, which bring their
directories along, and directories that were made. `Folder.read` follows a
path part by part, and each part but the last has to be a directory on the
way; `Folder.makeDirectory` makes those that are missing.
-/

namespace Colloquy

/-- Why a file is not read, or a directory not made. -/
inductive FileError where
  | absent
  | isDirectory
  | notDirectory
  | notText
  /-- A file stands where a directory should be made. -/
  | taken
deriving DecidableEq, Repr

/-- The wording of a file error. -/
def FileError.message : FileError → String
  | .absent => "No such file or directory (os error 2)"
  | .isDirectory => "Is a directory (os error 21)"
  | .notDirectory => "Not a directory (os error 20)"
  | .notText => "stream did not contain valid UTF-8"
  | .taken => "File exists (os error 17)"

/-- A folder with its files and the directories made in it, by the parts of
their paths. -/
structure Folder where
  root : String
  files : List (List String × List UInt8)
  made : List (List String) := []

namespace Folder

/-- The parts of a path. -/
def parts (path : String) : List String :=
  (Text.splitOnChar '/' path.toList).map String.ofList

/-- The folder of files given by their paths. -/
def ofFiles (root : String) (files : List (String × List UInt8)) : Folder :=
  ⟨root, files.map fun (path, content) => (parts path, content), []⟩

/-- What is at a place in a folder. -/
inductive Entry where
  | file (content : List UInt8)
  | directory
  | nothing

/-- What is at a place. The root itself is a directory. -/
def entry (f : Folder) (place : List String) : Entry :=
  match f.files.find? fun e => e.1 = place with
  | some e => .file e.2
  | none =>
    if place.isEmpty || f.made.contains place || f.files.any fun e => place.isPrefixOf e.1 then
      .directory
    else .nothing

/-- The content at the end of a path that starts at a place. Above the root
nothing is known. -/
def follow (f : Folder) (place : List String) : List String → Except FileError (List UInt8)
  | [] =>
    match f.entry place with
    | .file content => .ok content
    | .directory => .error .isDirectory
    | .nothing => .error .absent
  | part :: rest =>
    match f.entry place with
    | .file _ => .error .notDirectory
    | .nothing => .error .absent
    | .directory =>
      if part = "" || part = "." then follow f place rest
      else if part = ".." then
        if place.isEmpty then .error .absent else follow f place.dropLast rest
      else follow f (place ++ [part]) rest

/-- The parts of a whole path that lies in a folder. -/
def within? (f : Folder) (path : String) : Option (List String) :=
  match Text.afterPrefix? f.root.toList path.toList with
  | some [] => some []
  | some ('/' :: rest) => some (parts (String.ofList rest))
  | _ => none

/-- The content of a file, by its whole path. -/
def read (f : Folder) (path : String) : Except FileError (List UInt8) :=
  match f.within? path with
  | some parts => f.follow [] parts
  | none => if path.toList.all (· = '/') then .error .isDirectory else .error .absent

/-- The folder with the directories of a path that starts at a place. -/
def make (f : Folder) (place : List String) : List String → Except FileError Folder
  | [] => .ok f
  | part :: rest =>
    if part = "" || part = "." then make f place rest
    else if part = ".." then make f place.dropLast rest
    else
      let place := place ++ [part]
      match f.entry place with
      | .file _ => .error (if rest.isEmpty then .taken else .notDirectory)
      | .directory => make f place rest
      | .nothing => make { f with made := f.made ++ [place] } place rest

/-- The folder with a directory and all directories above it, by its whole
path. -/
def makeDirectory (f : Folder) (path : String) : Except FileError Folder :=
  match f.within? path with
  | some parts => f.make [] parts
  | none => .error .absent

/-- The place that a path leads to, whether anything is there or not. -/
def placeOf (place : List String) : List String → List String
  | [] => place
  | part :: rest =>
    if part = "" || part = "." then placeOf place rest
    else if part = ".." then placeOf place.dropLast rest
    else placeOf (place ++ [part]) rest

/-- The place of a whole path. -/
def place (f : Folder) (path : String) : List String :=
  placeOf [] ((f.within? path).getD [])

/-- Whether a file can be opened for writing at a place: its directory is there,
and no directory stands in its place. -/
def canHold (f : Folder) (place : List String) : Bool :=
  match f.entry place.dropLast, f.entry place with
  | .directory, .directory => false
  | .directory, _ => true
  | _, _ => false

/-- The folder with an empty file at a place where there is nothing. -/
def touch (f : Folder) (place : List String) : Folder :=
  match f.entry place with
  | .nothing => { f with files := f.files ++ [(place, [])] }
  | _ => f

end Folder

end Colloquy
