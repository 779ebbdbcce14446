import Orchestration.Files.Path
import Orchestration.Outside

/-!
# Opening a database

A database is opened with its directory made, its tables set up and its layout brought to the present
version; whatever was in the file stays.
-/

namespace Orchestration.Database

open Files

/-- An operation on the database at a path. -/
def operate (path : String) (o : DatabaseOperation) : Effect DatabaseError o.Answer :=
  .ofProgram (Program.request (S := Outside) (.database path o))

/-- An operation whose failures have no context. -/
def bare (path : String) (o : DatabaseOperation) : Effect Failure o.Answer :=
  (operate path o).mapError fun e : DatabaseError => (e : Failure)

/-- Makes the directory that a path lies in. -/
def makeParent (path : String) : Effect Failure Unit := do
  match parent? path with
  | none => pure ()
  | some directory =>
    match ← Effect.ask (.makeDirectories directory) with
    | .ok () => pure ()
    | .error e =>
      throw {
        contexts := [s!"failed to create directory {directory}"]
        cause := .plain (FileError.message e) }

/-- Opens the database at a path. -/
def openAt (path : String) : Effect Failure Unit := do
  makeParent path
  (bare path .connect).within s!"failed to open database at {path}"
  bare path .prepare
  (bare path .setUp).within "failed to initialize schema"
  (bare path .migrate).within "failed to run migrations"

end Orchestration.Database
