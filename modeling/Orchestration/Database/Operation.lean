import Orchestration.Database.Tables

/-!
# Operations on databases

What can be asked of a database file, and what each operation does to the database in it.

* `Database.apply` — the answer to an operation, and the database after it.
-/

namespace Orchestration

/-- What can be done with a database file; the file comes into being, empty, when it is not there. -/
inductive DatabaseOperation where
  /-- opens the file and does nothing more -/
  | connect
  /-- settles how changes are kept safe; the first operation that reads the file -/
  | prepare
  /-- sets up the tables that are missing -/
  | setUp
  /-- brings the layout to the present version -/
  | migrate
  /-- the version of the layout -/
  | version
  /-- puts another text in the place of the version; how many rows that changed -/
  | setVersionText (text : String)
  /-- takes the note of the version away; how many rows that changed -/
  | deleteVersion
  /-- the model the vectors were made with -/
  | model
  /-- notes the model the vectors were made with -/
  | setModel (name : String)
  /-- the names of tables and indexes -/
  | objectNames
  /-- a look at the database -/
  | health

/-- What an operation is answered with when it succeeds. -/
def DatabaseOperation.Answer : DatabaseOperation → Type
  | .connect => Unit
  | .prepare => Unit
  | .setUp => Unit
  | .migrate => Unit
  | .version => Nat
  | .setVersionText _ => Nat
  | .deleteVersion => Nat
  | .model => Option String
  | .setModel _ => Unit
  | .objectNames => List String
  | .health => Database.Health

namespace Database

/-- An answer with the database after it, or the database as it was. -/
def orAsBefore {α : Type} (d : Database) :
    Except DatabaseError (α × Database) → Except DatabaseError α × Database
  | .ok (answer, d) => (.ok answer, d)
  | .error e => (.error e, d)

/-- The answer to an operation, and the database after it. -/
def apply (d : Database) : (o : DatabaseOperation) → Except DatabaseError o.Answer × Database
  | .connect => (.ok (), d)
  | .prepare => (.ok (), d)
  | .setUp => (.ok (), d.setUp)
  | .migrate => d.migrate
  | .version => (d.version, d)
  | .setVersionText text => d.orAsBefore (d.setVersionText text)
  | .deleteVersion => d.orAsBefore d.deleteVersion
  | .model => (d.model, d)
  | .setModel name => d.orAsBefore ((d.setModel name).map fun d => ((), d))
  | .objectNames => (.ok d.objectNames, d)
  | .health => (d.health, d)

/-- The private database of a program: set up, with the present layout, and otherwise empty. -/
def fresh : Database := (Database.setUp {}).migrate.2

end Database

end Orchestration
