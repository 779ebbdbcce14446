import Orchestration.Database.Tables
import Orchestration.Dictionary
import Orchestration.Files.Error
import Orchestration.Files.Path
import Orchestration.Text.Search

/-!
# A tree of files

Files and directories by their absolute paths, with a directory that relative paths start from.

* `Tree.locate` — follows a path part by part; every part but the last must be a directory.
* `Tree.read`, `Tree.write`, `Tree.makeDirectories` — what can be done with files.
-/

namespace Orchestration.Files

open Text

/-- What stands under a path. -/
inductive Entry where
  /-- a directory -/
  | directory
  /-- a file with text -/
  | text (content : String)
  /-- a database file -/
  | database (content : Database)
  deriving DecidableEq

/-- The database in a file; an empty file is an empty database. -/
def Entry.database? : Entry → Option Database
  | .database d => some d
  | .text s => if s.isEmpty then some {} else none
  | .directory => none

/-- Files and directories. -/
structure Tree where
  /-- what stands under each absolute path; the root is not listed -/
  entries : Dictionary Entry := ∅
  /-- the names that lead to the directory that relative paths start from -/
  current : List String := []

namespace Tree

/-- The absolute path that names lead to. -/
def pathOf (names : List String) : String := String.join (names.map ("/" ++ ·))

/-- What stands where names lead. -/
def at? (t : Tree) (names : List String) : Option Entry :=
  if names.isEmpty then some .directory else t.entries.get? (pathOf names)

/-- Puts something where names lead. -/
def put (t : Tree) (names : List String) (e : Entry) : Tree :=
  { t with entries := t.entries.insert (pathOf names) e }

/-- Whether the names lead to a directory. -/
def isDirectoryAt (t : Tree) (names : List String) : Bool := t.at? names = some .directory

/-- The parts of a path. -/
def partsOf (path : String) : List String :=
  ((splitOn '/' path.toList).filter (· ≠ [])).map .ofList

/-- Where a path leads, by names from the root; what stands at its end may be missing. -/
def walk (t : Tree) : List String → List String → Except FileError (List String)
  | here, [] => .ok here
  | here, part :: parts =>
    match t.at? here with
    | none => .error .notFound
    | some .directory =>
      if part = "." then walk t here parts
      else if part = ".." then walk t here.dropLast parts
      else if 255 < part.utf8ByteSize then .error .nameTooLong
      else walk t (here ++ [part]) parts
    | some _ => .error .notDirectory

/-- A path that leads somewhere. -/
structure Location where
  /-- the names from the root -/
  names : List String
  /-- whether the path ends like that of a directory -/
  asDirectory : Bool

/-- Where a path leads. -/
def locate (t : Tree) (path : String) : Except FileError Location :=
  if path.isEmpty then .error .notFound
  else if path.toList.contains '\x00' then .error .badCharacter
  else
    let start := if isAbsolute path then [] else t.current
    (walk t start (partsOf path)).map fun names =>
      ⟨names, path.toList.getLast? = some '/'⟩

/-- What stands under a path. -/
def find (t : Tree) (path : String) : Except FileError Entry := do
  let here ← t.locate path
  match t.at? here.names with
  | none => throw .notFound
  | some .directory => return .directory
  | some e => if here.asDirectory then throw .notDirectory else return e

/-- The text of a file. -/
def read (t : Tree) (path : String) : Except FileError String := do
  match ← t.find path with
  | .directory => throw .isDirectory
  | .text s => return s
  | .database d => if d.tables.isNone then return "" else throw .notText

/-- Where a file under a path is or may be made. -/
def place (t : Tree) (path : String) : Except FileError (List String) := do
  let here ← t.locate path
  match t.at? here.names with
  | some .directory => throw .isDirectory
  | some _ => if here.asDirectory then throw .notDirectory else return here.names
  | none => if here.asDirectory then throw .isDirectory else return here.names

/-- Puts a text into a file, a new one if need be. -/
def write (t : Tree) (path text : String) : Except FileError Tree := do
  return t.put (← t.place path) (.text text)

/-- Makes a directory in one that is there. -/
def makeDirectory (t : Tree) (path : String) : Except FileError Tree := do
  let here ← t.locate path
  match t.at? here.names with
  | none => return t.put here.names .directory
  | some _ => throw .exists

/-- Makes a directory and those that it lies in, as far as they are missing; `bound` is at least the
length of the path. -/
def makeWithin (t : Tree) : Nat → String → Except FileError Tree
  | 0, _ => .ok t
  | bound + 1, path =>
    if path.isEmpty then .ok t
    else match t.makeDirectory path with
      | .ok t => .ok t
      | .error e =>
        let present := match t.find path with
          | .ok .directory => true
          | _ => false
        if e = .notFound then
          match parent? path with
          | none => .error (.other "failed to create whole tree")
          | some parent => do (← makeWithin t bound parent).makeDirectory path
        else if present then .ok t
        else .error e

/-- Makes a directory and those that it lies in, as far as they are missing. -/
def makeDirectories (t : Tree) (path : String) : Except FileError Tree :=
  t.makeWithin (path.length + 1) path

end Tree

end Orchestration.Files
