import Orchestration.Outside

/-!
# Model services

What the library wants of a model: to continue a prompt, and to turn texts into vectors.

* `Completion.attached` — the model that was attached from outside.
* `Embedder.embedOne` — the vector of a single text, the last one that comes back.
-/

namespace Orchestration

open Number

/-- A model that continues prompts. -/
structure Completion where
  /-- the continuation of a prompt -/
  complete : String → CompletionSettings → Effect AiError String

/-- A model that turns texts into vectors. -/
structure Embedder where
  /-- a vector for each text, in order -/
  embed : List String → Effect AiError (List Vector)

/-- The model that was attached from outside. -/
def Completion.attached : Completion where
  complete prompt settings := .ofProgram (Program.request (S := Outside) (.complete prompt settings))

/-- The vector of a single text. -/
def Embedder.embedOne (e : Embedder) (text : String) : Effect AiError Vector := do
  match (← e.embed [text]).getLast? with
  | some vector => return vector
  | none => throw (.invalidResponse "no embedding returned")

end Orchestration
