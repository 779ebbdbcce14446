import Orchestration.Kernel.Errand
import Orchestration.Kernel.Registry
import Orchestration.Memory.Semantic

/-!
# The kernel

The registry of functions together with the services that they use.

* `Kernel.run` — functions in a row, each working on what the one before it returned.
-/

namespace Orchestration

/-- Functions and the services that they use. -/
structure Kernel where
  /-- the functions -/
  registry : Registry := ∅
  /-- the model that continues prompts -/
  completion : Option Completion := none
  /-- the memory -/
  memory : Option Memory.Semantic := none

namespace Kernel

/-- The model that continues prompts, or the failure of a kernel without one. -/
def requireCompletion (k : Kernel) : Except KernelError Completion :=
  match k.completion with
  | some c => .ok c
  | none => .error (.missingService "text completion service")

/-- Puts a function into a plugin. -/
def register (k : Kernel) (plugin : String) (f : Function) : Kernel :=
  { k with registry := k.registry.add plugin f }

/-- Puts functions into a plugin, one after another. -/
def importPlugin (k : Kernel) (plugin : String) (functions : List Function) : Kernel :=
  functions.foldl (·.register plugin ·) k

/-- Makes a function of a prompt and puts it into a plugin. -/
def registerPrompt (k : Kernel) (plugin name description template : String)
    (settings : CompletionSettings) : Except KernelError (FunctionView × Kernel) := do
  let completion ← k.requireCompletion
  let f := Function.ofPrompt name description ⟨template⟩ settings completion
  return (Registry.viewIn plugin f, k.register plugin f)

/-- Calls the function of a plugin and name. -/
def invoke (k : Kernel) (plugin name : String) (v : Variables) : Task Failure String :=
  match k.registry.get plugin name with
  | .ok f => Task.call f v
  | .error e => throw (e : Failure)

/-- Runs functions in a row: each output is the input of the next, and the last one is the input of the
variables at the end. -/
def run : List Function → Variables → Task Failure Variables
  | [], v => return v
  | f :: fs, v => do
    let output ← (Task.call f v).mapError (·.within s!"pipeline step {f.view.qualified} failed")
    run fs (v.setInput output)

end Kernel

end Orchestration
