import Orchestration.Text.Quoted

/-!
# What can go wrong

Each part of the library reports its own kind of failure as a value; the wording stands here, once.
A failure that passes through other parts on its way gathers their contexts.

* `MemoryError`, `AiError`, `KernelError`, `PlanningError` — the failures with a meaning of their own.
* `Failure` — a cause and the contexts it passed through, outermost first.
* `Failure.report` — contexts and cause in one line.
-/

namespace Orchestration

open Text

/-- Failures of a database. -/
inductive DatabaseError where
  /-- a row was wanted and there is none -/
  | noRows
  /-- the database could not do what was asked -/
  | failed (detail : String)
  deriving DecidableEq, Repr

/-- The wording of a database failure. -/
def DatabaseError.message : DatabaseError → String
  | .noRows => "Query returned no rows"
  | .failed detail => detail

/-- Failures of a memory store. -/
inductive MemoryError where
  /-- there is no collection of that name -/
  | collectionNotFound (name : String)
  /-- no collection may have that name -/
  | invalidCollectionName (name : String)
  /-- a vector has another length than those it is to be compared with -/
  | dimensionMismatch (expected actual : Nat)
  /-- the database failed -/
  | storage (cause : DatabaseError)
  /-- a remote store refused -/
  | service (status : Nat) (message : String)
  /-- a remote store could not be reached or understood -/
  | http (detail : String)
  /-- stored data could not be read -/
  | serialization (detail : String)
  /-- no vector could be made for a text -/
  | embedding (detail : String)
  deriving DecidableEq, Repr

/-- The wording of a store's failure. -/
def MemoryError.message : MemoryError → String
  | .collectionNotFound name => s!"collection not found: {name}"
  | .invalidCollectionName name => s!"invalid collection name: {quoted name}"
  | .dimensionMismatch expected actual =>
    s!"embedding dimension mismatch: expected {expected}, got {actual}"
  | .storage cause => s!"storage error: {cause.message}"
  | .service status message => s!"memory service returned {status}: {message}"
  | .http detail => s!"http error: {detail}"
  | .serialization detail => s!"serialization error: {detail}"
  | .embedding detail => s!"embedding generation failed: {detail}"

/-- Failures of a model service. -/
inductive AiError where
  /-- no key is known -/
  | missingApiKey
  /-- the service refused -/
  | service (status : Nat) (message : String)
  /-- the service answered something else than was asked for -/
  | invalidResponse (detail : String)
  /-- the service could not be reached or understood -/
  | http (detail : String)
  /-- a model on this machine failed -/
  | localModel (detail : String)
  deriving DecidableEq, Repr

/-- The wording of a model service's failure. -/
def AiError.message : AiError → String
  | .missingApiKey => "no API key configured (set SK_API_KEY or OPENAI_API_KEY)"
  | .service status message => s!"AI service returned {status}: {message}"
  | .invalidResponse detail => s!"invalid response from AI service: {detail}"
  | .http detail => s!"http error: {detail}"
  | .localModel detail => s!"local inference failed: {detail}"

/-- Failures to find or call a function. -/
inductive KernelError where
  /-- there is no such function -/
  | functionNotFound (plugin function : String)
  /-- there is no such plugin -/
  | pluginNotFound (name : String)
  /-- a service is needed that is not there -/
  | missingService (name : String)
  /-- an argument cannot be used -/
  | invalidArgument (name reason : String)
  deriving DecidableEq, Repr

/-- The wording of a failure to find or call a function. -/
def KernelError.message : KernelError → String
  | .functionNotFound plugin function => s!"function not found: {plugin}.{function}"
  | .pluginNotFound name => s!"plugin not found: {name}"
  | .missingService name => s!"kernel has no {name} configured"
  | .invalidArgument name reason => s!"invalid argument '{name}': {reason}"

/-- Failures to make a plan. -/
inductive PlanningError where
  /-- the goal is blank -/
  | invalidGoal
  /-- what the model wrote is no plan -/
  | invalidPlan (detail : String)
  /-- a plan names a function that is not there -/
  | functionNotFound (name : String)
  /-- no answer after so many turns -/
  | maxIterationsExceeded (turns : Nat)
  /-- the model service failed -/
  | ai (cause : AiError)
  /-- the memory failed -/
  | memory (cause : MemoryError)
  /-- the kernel lacks something -/
  | kernel (cause : KernelError)
  deriving DecidableEq, Repr

/-- The wording of a planning failure. -/
def PlanningError.message : PlanningError → String
  | .invalidGoal => "the goal specified is empty"
  | .invalidPlan detail => s!"invalid plan: {detail}"
  | .functionNotFound name => s!"function not found: {name}"
  | .maxIterationsExceeded turns => s!"max iterations exceeded ({turns}) without a final answer"
  | .ai cause => cause.message
  | .memory cause => cause.message
  | .kernel cause => cause.message

/-- What a failure comes from. -/
inductive Cause where
  | memory (error : MemoryError)
  | ai (error : AiError)
  | kernel (error : KernelError)
  | planning (error : PlanningError)
  | database (error : DatabaseError)
  /-- a failure with no kind of its own -/
  | plain (text : String)
  /-- a failure in the words of the network or of a reader of documents -/
  | foreign (text : String)
  deriving DecidableEq, Repr

/-- The wording of a cause. -/
def Cause.message : Cause → String
  | .memory error => error.message
  | .ai error => error.message
  | .kernel error => error.message
  | .planning error => error.message
  | .database error => error.message
  | .plain text => text
  | .foreign text => text

/-- A cause and the contexts it passed through. -/
structure Failure where
  /-- the contexts, outermost first -/
  contexts : List String := []
  /-- where it started -/
  cause : Cause
  deriving DecidableEq, Repr

namespace Failure

/-- A failure with no kind of its own. -/
def text (s : String) : Failure := { cause := .plain s }

/-- The failure inside a further context. -/
def within (context : String) (f : Failure) : Failure := { f with contexts := context :: f.contexts }

/-- The outermost wording. -/
def headline (f : Failure) : String := f.contexts.head?.getD f.cause.message

/-- Contexts and cause in one line. -/
def report (f : Failure) : String := ": ".intercalate (f.contexts ++ [f.cause.message])

end Failure

instance : Coe MemoryError Failure := ⟨fun e => { cause := .memory e }⟩

instance : Coe AiError Failure := ⟨fun e => { cause := .ai e }⟩

instance : Coe KernelError Failure := ⟨fun e => { cause := .kernel e }⟩

instance : Coe PlanningError Failure := ⟨fun e => { cause := .planning e }⟩

instance : Coe DatabaseError Failure := ⟨fun e => { cause := .database e }⟩

end Orchestration
