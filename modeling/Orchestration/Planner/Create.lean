import Orchestration.Planner.Choice
import Orchestration.Planner.Markup
import Orchestration.Planner.Prompts
import Orchestration.Planner.Selection

/-!
# Making a plan

A planner describes the available functions to a model, asks for a plan, and reads the answer.

* `Planner.parse` — the planner of a name.
* `createPlan` — the plan for a goal.
-/

namespace Orchestration

open Text

/-- The planners that make a plan at once. -/
inductive Planner where
  /-- a plan of several steps, in markup -/
  | sequential
  /-- one function -/
  | action
  /-- a list of subtasks -/
  | basic
  deriving DecidableEq, Repr

namespace Planner

/-- The planner of a name, in letters of any case, or the words for there being none. -/
def parse (name : String) : Except String Planner :=
  let small : String := .ofList (name.toList.map Char.toLower)
  if small = "sequential" then .ok .sequential
  else if small = "action" then .ok .action
  else if small = "basic" then .ok .basic
  else .error s!"unknown planner: {small}. Supported: sequential, action, basic"

/-- The line about a parameter in the list of functions to choose from. -/
def choiceParameterLine (p : Parameter) : String :=
  let rest :=
    match p.default with
    | some d => if d.isEmpty then "" else s!" (default value: {d})"
    | none => ""
  s!"Parameter \"{p.name}\": {p.description}{rest}\n"

/-- A function in the list to choose from. -/
def choiceManual (v : FunctionView) : String :=
  s!"// {v.description}\n{v.qualified}\n" ++
    (if v.parameters.isEmpty then "No parameters.\n" else "") ++
    String.join (v.parameters.map choiceParameterLine)

/-- A function in the list for subtasks. -/
def subtaskManual (v : FunctionView) : String :=
  s!"{v.qualified}\ndescription: {v.description}\nargs:\n" ++
    String.join (v.parameters.map fun p => s!"- {p.name}: {p.description}\n")

/-- The prompt for a goal, given the functions that are offered. -/
def prompt (planner : Planner) (goal : String) (views : List FunctionView) : String :=
  match planner with
  | .sequential =>
    markupPrompt.render ((Variables.ofInput goal).set "available_functions" (manuals views))
  | .action =>
    choicePrompt.render
      ((Variables.ofInput goal).set "available_functions" (String.join (views.map choiceManual)))
  | .basic =>
    subtaskPrompt.render
      (((∅ : Variables).set "goal" goal).set "available_functions"
        ("\n".intercalate (views.map subtaskManual)))

/-- The text that ends the list of a choice. -/
def endOfPlan : String := "#END-OF-PLAN"

/-- The settings of the request to the model. -/
def settings (planner : Planner) (c : Config.Planner) : CompletionSettings where
  maxTokens := c.maxTokens
  stopSequences :=
    match planner with
    | .action => [endOfPlan]
    | _ => []

/-- The plan that an answer describes. -/
def read (planner : Planner) (k : Kernel) (c : Config.Planner) (goal answer : String) :
    Except PlanningError Plan :=
  match planner with
  | .sequential => readMarkup answer goal k c.allowMissingFunctions
  | .action => readChoice answer goal k
  | .basic => readSubtasks answer goal k

end Planner

/-- The plan that a model makes for a goal. -/
def createPlan (planner : Planner) (k : Kernel) (c : Config.Planner) (goal : String) :
    Task PlanningError Plan := do
  if isBlankText goal then throw .invalidGoal
  let completion ← Task.ofExcept (k.requireCompletion.mapError .kernel)
  let views ← Planner.available k c goal
  let answer ← (Task.complete completion (planner.prompt goal views) (planner.settings c)).mapError .ai
  Task.ofExcept (planner.read k c goal answer)

end Orchestration
