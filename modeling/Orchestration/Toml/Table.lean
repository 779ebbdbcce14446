import Orchestration.Toml.Value

/-!
# Tables under construction

A configuration file names its tables bit by bit: by a header, by a dotted key, or only as the way to
another table. How a table came about decides how it may grow.

* A header declares a table once; one that other headers only led through may still be declared.
* A dotted key leads through tables that no header declared, and adds only to those that dotted keys made.
* Nothing is named twice, and what is written out in one piece does not grow.
-/

namespace Orchestration.Toml

/-- How a table came about. -/
inductive Origin where
  /-- by a header of its own -/
  | declared
  /-- as the way to a table with a header -/
  | implied
  /-- by a dotted key -/
  | dotted
  deriving DecidableEq

/-- What stands under a name while a file is read. -/
inductive Node where
  /-- a value that is written out in one piece -/
  | leaf (value : Value)
  /-- a table -/
  | table (origin : Origin) (entries : List (String × Node))
  /-- tables in a row, each with a header of its own; the last one may grow -/
  | tables (last : List (String × Node)) (earlier : List (List (String × Node)))

/-- A name at the end of a way through tables. -/
structure Key where
  /-- the tables on the way -/
  parents : List String
  /-- the name in the last of them -/
  name : String

/-- The entries of a table. -/
abbrev Entries := List (String × Node)

/-- Changes what stands under a name, if it may be changed. -/
def change (name : String) (f : Option Node → Option Node) : Entries → Option Entries
  | [] => (f none).map fun node => [(name, node)]
  | (other, node) :: rest =>
    if other = name then (f (some node)).map fun node => (other, node) :: rest
    else (change name f rest).map ((other, node) :: ·)

/-- Whether a way of the given kind leads through a table. -/
def Origin.opensTo (way table : Origin) : Bool :=
  match way, table with
  | .dotted, .declared => false
  | _, _ => true

/-- Changes the table that names lead to; tables that are missing on the way come about as the kind of
the way says. -/
def changeAt (way : Origin) (f : Origin → Entries → Option Entries) :
    List String → Origin → Entries → Option Entries
  | [], origin, entries => f origin entries
  | name :: path, _, entries => change name (fun
      | none => (changeAt way f path way []).map (.table way)
      | some (.table origin held) =>
        if way.opensTo origin then (changeAt way f path origin held).map (.table origin) else none
      | some (.tables last earlier) =>
        (changeAt way f path .declared last).map fun last => .tables last earlier
      | some (.leaf _) => none) entries

/-- Gives a name that is free a value. -/
def assign (key : Key) (value : Value) (entries : Entries) : Option Entries :=
  changeAt .dotted (fun origin entries =>
    if !key.parents.isEmpty && origin ≠ .dotted then none
    else change key.name (fun
      | none => some (.leaf value)
      | some _ => none) entries) key.parents .declared entries

/-- Declares a table. -/
def declare (key : Key) (entries : Entries) : Option Entries :=
  changeAt .implied (fun _ entries => change key.name (fun
    | none => some (.table .declared [])
    | some (.table .implied held) => some (.table .declared held)
    | some _ => none) entries) key.parents .declared entries

/-- Declares a further table of those in a row under a name. -/
def declareNext (key : Key) (entries : Entries) : Option Entries :=
  changeAt .implied (fun _ entries => change key.name (fun
    | none => some (.tables [] [])
    | some (.tables last earlier) => some (.tables [] (last :: earlier))
    | some _ => none) entries) key.parents .declared entries

/-- Gives a name in the table that was declared last a value. -/
def assignIn (header : List String) (key : Key) (value : Value) (entries : Entries) :
    Option Entries :=
  changeAt .implied (fun _ entries => assign key value entries) header .declared entries

mutual

/-- What stands under a name, once the file is read. -/
def Node.toValue : Node → Value
  | .leaf value => value
  | .table _ entries => .table (valuesOf entries)
  | .tables last earlier => .array (tablesOf earlier [.table (valuesOf last)])

/-- The entries of a table, once the file is read. -/
def valuesOf : List (String × Node) → List (String × Value)
  | [] => []
  | (name, node) :: rest => (name, node.toValue) :: valuesOf rest

/-- Tables in a row, the latest first, in front of others in order. -/
def tablesOf : List (List (String × Node)) → List Value → List Value
  | [], later => later
  | entries :: earlier, later => tablesOf earlier (.table (valuesOf entries) :: later)

end

end Orchestration.Toml
