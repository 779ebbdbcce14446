import Orchestration.Kernel.Basic
import Orchestration.Plan.Basic

/-!
# Plans in documents

A model may write a plan as a document somewhere in its answer: either one function with its arguments,
or a list of subtasks. What counts is the text from the first opening to the last closing brace.

* `documentIn?` — the text of the document in an answer.
* `readChoice` — the plan of one step, or of none if the model chose no function.
* `readSubtasks` — the plan with one step for each subtask; the first works on the input of the answer
  unless it names its own.
-/

namespace Orchestration.Planner

open Text

/-- The characters from the first opening brace to the last closing brace after it. -/
def documentIn? (cs : List Char) : Option (List Char) :=
  match ((cs.dropWhile (· ≠ '\x7b')).reverse.dropWhile (· ≠ '\x7d')).reverse with
  | [] => none
  | document => some document

/-- An argument as text: a text as it is, anything else as a document, and nothing for `null`. -/
def argumentText? : Json → Option String
  | .null => none
  | .string s => some s
  | other => some other.compact

/-- Arguments as texts. -/
def argumentTexts (arguments : Dictionary Json) : Dictionary String :=
  .ofList (arguments.entries.filterMap fun e => (argumentText? e.2).map (e.1, ·))

/-- The document in an answer, read by a decoder. The failure says that the document cannot be read, and not why: what a
reader of documents may add behind it, of the place and of what was expected there, depends on the document alone and
is left out. -/
def readDocument {α : Type} (decode : Decoder α) (answer : String) : Except PlanningError α :=
  match documentIn? answer.toList with
  | none => .error (.invalidPlan s!"no JSON object in answer: {answer}")
  | some document =>
    match decode.read? (.ofList document) with
    | none => .error (.invalidPlan "plan JSON could not be parsed")
    | some value => .ok value

/-- The function of a name as a model spells it, blanks at its ends aside. -/
def resolve (k : Kernel) (name : String) : Except PlanningError FunctionView :=
  match k.registry.find (trim name) with
  | .ok f => .ok f.view
  | .error _ => .error (.functionNotFound name)

/-- The call of a function with arguments. -/
def callOf (v : FunctionView) (arguments : Dictionary Json) : PlanStep where
  plugin := v.plugin
  function := v.name
  parameters := argumentTexts arguments

/-! ### One function -/

/-- A function and the arguments to call it with. -/
structure Choice where
  /-- the function; blank for none -/
  function : String
  /-- the arguments -/
  arguments : Dictionary Json

/-- Reads a choice from the inside of an answer. -/
def Choice.bodyDecoder : Decoder Choice :=
  .record ["rationale", "function", "parameters"] fun f => do
    let _ ← f.withDefault "rationale" "" .string
    return {
      function := ← f.withDefault "function" "" .string
      arguments := ← f.withDefault "parameters" ∅ (.map .json) }

/-- Reads a choice from an answer. -/
def Choice.decoder : Decoder Choice := .record ["plan"] fun f => f.required "plan" bodyDecoder

/-- The plan of the one function that a model chose. -/
def readChoice (answer goal : String) (k : Kernel) : Except PlanningError Plan := do
  let choice ← readDocument Choice.decoder answer
  if isBlankText choice.function then return { goal }
  let view ← resolve k choice.function
  return Plan.ofSteps goal [callOf view choice.arguments]

/-! ### A list of subtasks -/

/-- A function and the arguments to call it with, in a list. -/
structure Subtask where
  /-- the function -/
  function : String
  /-- the arguments -/
  arguments : Dictionary Json

/-- Reads a subtask. -/
def Subtask.decoder : Decoder Subtask := .record ["function", "args"] fun f => do
  return {
    function := ← f.required "function" .string
    arguments := ← f.withDefault "args" ∅ (.map .json) }

/-- Subtasks and what the first of them works on. -/
structure Breakdown where
  /-- what the first subtask works on -/
  input : String
  /-- the subtasks, in order -/
  subtasks : List Subtask

/-- Reads subtasks from an answer. -/
def Breakdown.decoder : Decoder Breakdown := .record ["input", "subtasks"] fun f => do
  return {
    input := ← f.withDefault "input" "" .string
    subtasks := ← f.withDefault "subtasks" [] (.list Subtask.decoder) }

/-- A step with the input of the answer, unless it has an input argument or there is none. -/
def withTopInput (input : String) (s : PlanStep) : PlanStep :=
  if s.parameters.contains Variables.inputName || input.isEmpty then s
  else s.withParameter Variables.inputName input

/-- The step of a subtask. -/
def stepOfSubtask (k : Kernel) (t : Subtask) : Except PlanningError PlanStep := do
  return callOf (← resolve k t.function) t.arguments

/-- The plan of the subtasks that a model listed. -/
def readSubtasks (answer goal : String) (k : Kernel) : Except PlanningError Plan := do
  let breakdown ← readDocument Breakdown.decoder answer
  match ← breakdown.subtasks.mapM (stepOfSubtask k) with
  | [] => throw (.invalidPlan "plan contains no subtasks")
  | first :: rest => return Plan.ofSteps goal (withTopInput breakdown.input first :: rest)

end Orchestration.Planner
