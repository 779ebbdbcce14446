import Orchestration.Config.Basic
import Orchestration.Kernel.Basic
import Orchestration.Memory.Volatile

/-!
# The functions that a planner offers

* `manual` — how a function is described to a model.
* `isExcluded` — whether the configuration keeps a function back.
* `available` — the functions that are offered for a goal: all that are not kept back, or, when a
  threshold is set and there is a memory, those whose descriptions are closest to the goal, best first.
-/

namespace Orchestration.Planner

open Memory Text

/-- The line that describes a parameter. -/
def parameterLine (p : Parameter) : String :=
  match p.default with
  | some d =>
    if d.isEmpty then s!"    - {p.name}: {p.description}\n"
    else s!"    - {p.name}: {p.description} (default value: {d})\n"
  | none => s!"    - {p.name}: {p.description}\n"

/-- The description of a function for a model. -/
def manual (v : FunctionView) : String :=
  s!"{v.qualified}:\n  description: {v.description}\n  inputs:\n" ++
    String.join (v.parameters.map parameterLine)

/-- The descriptions of several functions. -/
def manuals (vs : List FunctionView) : String := "\n".intercalate (vs.map manual)

/-- Whether the configuration keeps a function back, by its plugin, its name, or both. -/
def isExcluded (c : Config.Planner) (v : FunctionView) : Bool :=
  c.excludedPlugins.any (sameAsciiLetters · v.plugin) ||
    c.excludedFunctions.any fun f => sameAsciiLetters f v.name || sameAsciiLetters f v.qualified

/-- The functions that are not kept back. -/
def offered (k : Kernel) (c : Config.Planner) : List FunctionView :=
  k.registry.views.filter (!isExcluded c ·)

/-- The name of the collection that descriptions are filed in. -/
def indexName : String := "planner_functions"

/-- A store of the descriptions that have a vector, by the names of their functions. -/
def index (views : List FunctionView) (vectors : List Number.Vector) :
    Except MemoryError Volatile :=
  let records := (views.zip vectors).map fun (view, vector) =>
    Record.ofText view.qualified (manual view) none none vector none
  let (_, store) := (∅ : Volatile).answer (.create indexName)
  match store.upsertAll indexName records with
  | (.ok _, store) => .ok store
  | (.error e, _) => .error e

/-- The view that a name belongs to; of several the last. -/
def viewNamed? (views : List FunctionView) (name : String) : Option FunctionView :=
  views.reverse.find? (·.qualified = name)

/-- The functions closest to a goal. -/
def closest (c : Config.Planner) (threshold : Float) (embedder : Embedder) (goal : String)
    (views : List FunctionView) : Task PlanningError (List FunctionView) := do
  let vectors ← (Task.embed embedder (views.map manual)).mapError .ai
  let store ← Task.ofExcept ((index views vectors).mapError .memory)
  let vector ← (Task.embedOne embedder goal).mapError .ai
  let found ← Task.ofExcept
    ((store.nearest indexName vector c.maxRelevantFunctions threshold false).mapError .memory)
  return found.filterMap (viewNamed? views ·.record.metadata.id)

/-- The functions that a planner offers for a goal. -/
def available (k : Kernel) (c : Config.Planner) (goal : String) :
    Task PlanningError (List FunctionView) :=
  let views := offered k c
  match c.relevancyThreshold, k.memory with
  | some threshold, some memory =>
    if views.isEmpty then pure views else closest c threshold memory.embedder goal views
  | _, _ => pure views

end Orchestration.Planner
