import Orchestration.Dictionary
import Orchestration.Error
import Orchestration.Number.Layout
import Orchestration.Number.Reading

/-!
# Database files

What a database file holds: nothing at first, and after it was set up the names of the collections, the
rows of the memory records, and a few settings, among them the version of the layout.

* `Database.setUp` — sets up what is missing and keeps what is there.
* `Database.migrate` — brings the layout from the version that is noted to the present one, step by
  step; each step and the note of its version go together.
* `Database.health` — what a look at a file shows.
-/

namespace Orchestration

open Number

/-- A row of the table of memory records. -/
structure MemoryRow where
  /-- the collection the record is filed in -/
  collection : String
  /-- the key it is filed under -/
  key : String
  /-- the metadata, as a document -/
  metadata : String
  /-- the vector, as bytes -/
  embedding : List UInt8
  /-- the length of the vector -/
  dimensions : Nat
  /-- when the record was made -/
  timestamp : Option String
  deriving DecidableEq

/-- The tables of a database that was set up. -/
structure Tables where
  /-- the names of the collections -/
  collections : Dictionary Unit := ∅
  /-- the memory records; no two rows have both collection and key in common -/
  records : List MemoryRow := []
  /-- the settings -/
  settings : Dictionary String := ∅
  /-- whether the records can be found by the length of their vectors -/
  indexedByDimensions : Bool := false
  deriving DecidableEq

/-- A database. -/
structure Database where
  /-- the tables, once they were set up -/
  tables : Option Tables := none
  deriving DecidableEq

namespace Database

/-- The name of the setting that notes the version of the layout. -/
def versionKey : String := "schema_version"

/-- The name of the setting that notes the model the vectors were made with. -/
def modelKey : String := "embedding_model"

/-- The present version of the layout. -/
def currentVersion : Nat := 2

/-- The tables, or the failure of a question to a database without them. -/
def require (d : Database) : Except DatabaseError Tables :=
  match d.tables with
  | some tables => .ok tables
  | none => .error (.failed "no such table")

/-- Notes the first version of the layout, unless a version is noted. -/
def Tables.noteFirstVersion (t : Tables) : Tables :=
  if t.settings.contains versionKey then t
  else { t with settings := t.settings.insert versionKey "1" }

/-- Sets up the tables, unless they are there, and notes the first version, unless one is noted. -/
def setUp (d : Database) : Database :=
  ⟨some (Tables.noteFirstVersion (d.tables.getD {}))⟩

/-- The version that a noted text stands for; zero if it is no number of 32 bits. -/
def parseVersion (text : String) : Nat := (readNatural? largest32 text).getD 0

/-- The version of the layout. -/
def version (d : Database) : Except DatabaseError Nat := do
  match (← d.require).settings.get? versionKey with
  | some text => return parseVersion text
  | none => throw .noRows

/-- Carries out the step to a version and notes the version, if there is such a step. -/
def Tables.step? (t : Tables) (next : Nat) : Option Tables :=
  if next = 2 then
    some { t with
      indexedByDimensions := true
      settings := t.settings.insert versionKey (.ofList (digitChars next)) }
  else none

/-- The steps from a version to the present one; it ends early at a version no step leads to. -/
def Tables.migrateFrom (version : Nat) (t : Tables) : Tables :=
  if version < currentVersion then
    match Tables.step? t (version + 1) with
    | some t => migrateFrom (version + 1) t
    | none => t
  else t
  termination_by currentVersion - version

/-- Brings the layout to the present version. -/
def migrate (d : Database) : Except DatabaseError Unit × Database :=
  match d.version, d.tables with
  | .ok version, some tables => (.ok (), ⟨some (Tables.migrateFrom version tables)⟩)
  | .error e, _ => (.error e, d)
  | _, none => (.error (.failed "no such table"), d)

/-- Puts another text in the place of the noted version; how many rows that changed. -/
def setVersionText (d : Database) (text : String) : Except DatabaseError (Nat × Database) := do
  let t ← d.require
  if t.settings.contains versionKey then
    return (1, ⟨some { t with settings := t.settings.insert versionKey text }⟩)
  else return (0, d)

/-- Takes the note of the version away; how many rows that changed. -/
def deleteVersion (d : Database) : Except DatabaseError (Nat × Database) := do
  let t ← d.require
  let rows := if t.settings.contains versionKey then 1 else 0
  return (rows, ⟨some { t with settings := t.settings.erase versionKey }⟩)

/-- The model that the vectors were made with, if one is noted. -/
def model (d : Database) : Except DatabaseError (Option String) := do
  return (← d.require).settings.get? modelKey

/-- Notes the model that the vectors were made with. -/
def setModel (d : Database) (name : String) : Except DatabaseError Database := do
  let t ← d.require
  return ⟨some { t with settings := t.settings.insert modelKey name }⟩

/-- The names of tables and indexes, in order. -/
def objectNames (d : Database) : List String :=
  match d.tables with
  | none => []
  | some t =>
    ["collections", "idx_records_collection"] ++
      (if t.indexedByDimensions then ["idx_records_dimensions"] else []) ++
      ["memory_records", "schema_meta"]

/-- What a look at a database shows. -/
structure Health where
  /-- the version of the layout -/
  version : Nat
  /-- the model that the vectors were made with -/
  model : Option String
  /-- how many collections there are -/
  collections : Nat
  /-- how many records there are -/
  records : Nat
  /-- what a check of the file says; `ok` when nothing is wrong -/
  integrity : String

/-- Whether nothing is wrong with the file. -/
def Health.isSound (h : Health) : Bool := h.integrity = "ok"

/-- A look at a database. -/
def health (d : Database) : Except DatabaseError Health := do
  let version ← d.version
  let t ← d.require
  return {
    version
    model := t.settings.get? modelKey
    collections := t.collections.size
    records := t.records.length
    integrity := "ok" }

end Database

end Orchestration
