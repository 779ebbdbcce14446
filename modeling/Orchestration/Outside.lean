import Orchestration.Ai.Settings
import Orchestration.Database.Operation
import Orchestration.Error
import Orchestration.Files.Error
import Orchestration.Http.Exchange
import Orchestration.Memory.Call
import Orchestration.Program

/-!
# The world outside

Everything a program of this library may ask of its surroundings: a model that was attached from
outside, the network, the clock, files, stores and databases. Whatever else happens is computed.

* `Outside` — the signature.
* `Effect` — a program over it that may fail.
-/

namespace Orchestration

open Files Memory

/-- Where a store keeps its records. -/
inductive StoreLocation where
  /-- in memory, as plain collections -/
  | volatile
  /-- in memory, in the tables of a private database -/
  | privateTables
  /-- in the tables of a database file -/
  | file (path : String)
  deriving DecidableEq

/-- What there is under a path. -/
inductive FileKind where
  /-- a directory -/
  | directory
  /-- a file of so many bytes -/
  | file (bytes : Nat)
  deriving DecidableEq

/-- The questions to the world outside. -/
inductive OutsideRequest where
  /-- asks the attached model to continue a prompt -/
  | complete (prompt : String) (settings : CompletionSettings)
  /-- sends a request over the network -/
  | exchange (request : Http.Request)
  /-- lets so many nanoseconds pass -/
  | wait (nanoseconds : Nat)
  /-- the time -/
  | now
  /-- the time on the clocks of this place -/
  | localNow
  /-- a key that was never given out before -/
  | freshKey
  /-- the value of an environment variable -/
  | environment (name : String)
  /-- the text of a file -/
  | readFile (path : String)
  /-- puts a text into a file -/
  | writeFile (path text : String)
  /-- makes a directory and those that it lies in, as far as they are missing -/
  | makeDirectories (path : String)
  /-- what there is under a path -/
  | look (path : String)
  /-- a call to a store -/
  | store (location : StoreLocation) (call : Call)
  /-- an operation on a database file -/
  | database (path : String) (operation : DatabaseOperation)
  /-- shows a text to the user -/
  | print (text : String)

/-- The type of the answer to a question. -/
def OutsideRequest.Answer : OutsideRequest → Type
  | .complete .. => Except AiError String
  | .exchange _ => Except String Http.Response
  | .wait _ => Unit
  | .now => Time.Timestamp
  | .localNow => Time.Zoned
  | .freshKey => String
  | .environment _ => Option String
  | .readFile _ => Except FileError String
  | .writeFile .. => Except FileError Unit
  | .makeDirectories _ => Except FileError Unit
  | .look _ => Option FileKind
  | .store _ call => Except MemoryError call.Answer
  | .database _ operation => Except DatabaseError operation.Answer
  | .print _ => Unit

/-- The world outside, as a signature. -/
def Outside : Signature := ⟨OutsideRequest, OutsideRequest.Answer⟩

/-- A program that asks the world outside and may fail. -/
abbrev Effect (ε α : Type) := ExceptT ε (Program Outside) α

namespace Effect

variable {ε ε' α : Type}

/-- A question that cannot fail. -/
def ask (r : OutsideRequest) : Effect ε r.Answer :=
  ExceptT.lift (Program.request (S := Outside) r)

/-- A program whose outcome may be a failure. -/
def ofProgram (p : Program Outside (Except ε α)) : Effect ε α := ExceptT.mk p

/-- The program with its failures turned into others. -/
def mapError (f : ε → ε') (e : Effect ε α) : Effect ε' α :=
  ExceptT.mk (e.run >>= fun outcome => pure (outcome.mapError f))

/-- The outcome, whether a failure or not. -/
def attempt (e : Effect ε α) : Effect ε' (Except ε α) := ExceptT.lift e.run

/-- An outcome that is there already. -/
def ofExcept (outcome : Except ε α) : Effect ε α := ExceptT.mk (pure outcome)

/-- Shows a line to the user. -/
def printLine (line : String) : Effect ε Unit := ask (.print (line ++ "\n"))

/-- The program with a context around its failures. -/
def within (context : String) (e : Effect Failure α) : Effect Failure α :=
  e.mapError (·.within context)

end Effect

end Orchestration
