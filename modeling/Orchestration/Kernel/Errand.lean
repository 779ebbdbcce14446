import Orchestration.Kernel.Function

/-!
# Errands

What plans and planners ask for while they run: a completion, vectors, or a call of a function. Their
programs name the service or the function they mean, so that a log of the errands shows exactly what
was called with what; `Errand.carry` says how each errand reaches the world outside.
-/

namespace Orchestration

open Number

/-- What a plan or a planner asks for. -/
inductive Errand where
  /-- has a model continue a prompt -/
  | complete (service : Completion) (prompt : String) (settings : CompletionSettings)
  /-- has texts turned into vectors -/
  | embed (service : Embedder) (texts : List String)
  /-- calls a function -/
  | call (function : Function) (v : Variables)

/-- What comes of an errand. -/
def Errand.Answer : Errand → Type
  | .complete .. => Except AiError String
  | .embed .. => Except AiError (List Vector)
  | .call .. => Except Failure String

/-- The errands, as a signature. -/
def Errands : Signature := ⟨Errand, Errand.Answer⟩

/-- A program that runs errands and may fail. -/
abbrev Task (ε α : Type) := ExceptT ε (Program Errands) α

/-- Carries an errand out. -/
def Errand.carry : (e : Errand) → Program Outside e.Answer
  | .complete service prompt settings => (service.complete prompt settings).run
  | .embed service texts => (service.embed texts).run
  | .call function v => (function.invoke v).run

namespace Task

variable {ε ε' α : Type}

/-- Carries out all errands of a task. -/
def perform (t : Task ε α) : Effect ε α := ExceptT.mk (t.run.perform Errand.carry)

/-- The task with its failures turned into others. -/
def mapError (f : ε → ε') (t : Task ε α) : Task ε' α :=
  ExceptT.mk (t.run >>= fun outcome => pure (outcome.mapError f))

/-- The outcome, whether a failure or not. -/
def attempt (t : Task ε α) : Task ε' (Except ε α) := ExceptT.lift t.run

/-- An outcome that is there already. -/
def ofExcept (outcome : Except ε α) : Task ε α := ExceptT.mk (pure outcome)

/-- Has a model continue a prompt. -/
def complete (service : Completion) (prompt : String) (settings : CompletionSettings) :
    Task AiError String :=
  ExceptT.mk (Program.request (S := Errands) (.complete service prompt settings))

/-- Has texts turned into vectors. -/
def embed (service : Embedder) (texts : List String) : Task AiError (List Vector) :=
  ExceptT.mk (Program.request (S := Errands) (.embed service texts))

/-- Has a single text turned into a vector. -/
def embedOne (service : Embedder) (text : String) : Task AiError Vector := do
  match (← embed service [text]).getLast? with
  | some vector => return vector
  | none => throw (.invalidResponse "no embedding returned")

/-- Calls a function. -/
def call (function : Function) (v : Variables) : Task Failure String :=
  ExceptT.mk (Program.request (S := Errands) (.call function v))

end Task

end Orchestration
