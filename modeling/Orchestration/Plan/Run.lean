import Orchestration.Kernel.Basic
import Orchestration.Plan.Basic
import Orchestration.Text.Search
import Orchestration.Text.Word

/-!
# Running a plan

The steps of a plan run in order on one state of variables. What a step returns becomes the running
input and goes into the variables the step names; its arguments are seen by its function alone.

* `expand` — references of the form `$NAME` replaced by the variables that are set; what was put in is
  not read again.
* `Plan.argumentsFor` — the variables that the function of a step is called with.
* `Plan.record` — the state after a step.
* `Plan.run` — all steps, and the result.
-/

namespace Orchestration

open Text

/-- The variable that collects the outputs of all steps that add to a result. -/
def resultName : String := "PLAN.RESULT"

/-- Whether a character may start the name of a reference. -/
def startsReference (c : Char) : Bool := c.isAlpha || c = '_'

/-- The name referred to at the start of a text, and what follows the reference. -/
def variableReference? : List Char → Option (List Char × List Char)
  | '$' :: c :: cs =>
    if startsReference c then some (c :: cs.takeWhile isNameChar, cs.dropWhile isNameChar) else none
  | _ => none

/-- A reference as the variable it names, or as it stands if that is not set. -/
def resolve (state : Variables) (name : List Char) : List Char :=
  match state.get? (.ofList name) with
  | some value => value.toList
  | none => '$' :: name

/-- A text with its references replaced. -/
def expand (text : String) (state : Variables) : String :=
  .ofList (replaceFound variableReference? (resolve state) text.toList)

/-- How a run of a plan ends. -/
structure PlanOutcome where
  /-- the result -/
  result : String
  /-- the variables at the end -/
  state : Variables
  deriving DecidableEq

namespace Plan

/-- The variables that the function of a step is called with: the state, the arguments of the step, and as
input its argument of that name, if it is not empty, or else the running input. -/
def argumentsFor (step : PlanStep) (state : Variables) : Variables :=
  let v := step.parameters.entries.foldl (fun v p => v.set p.1 (expand p.2 state)) state
  match (step.parameters.get? Variables.inputName).filter (!·.isEmpty) with
  | some input => v.setInput (expand input state)
  | none => v.setInput state.input

/-- The state with an output added to a result variable. A variable that the step also stores
its output in holds the output alone. -/
def appendOutput (step : PlanStep) (name output : String) (state : Variables) : Variables :=
  let current := (state.get? name).getD ""
  if current.isEmpty || step.outputs.any (sameAsciiLetters · name) then state.set name output
  else state.set name (current ++ "\n" ++ output)

/-- The state after a step with the given output. -/
def record (step : PlanStep) (output : String) (state : Variables) : Variables :=
  let state := step.outputs.foldl (fun v name => v.set name output) (state.setInput output)
  match step.appendTo with
  | some name => appendOutput step name output state
  | none => state

/-- Runs the function of a step; the trimmed output. -/
def runStep (k : Kernel) (index : Nat) (step : PlanStep) (state : Variables) : Task Failure String := do
  let f ← Task.ofExcept <| (k.registry.get step.plugin step.function).mapError fun e : KernelError =>
    (e : Failure).within s!"plan step {index} cannot run"
  let output ← (Task.call f (argumentsFor step state)).mapError
    (·.within s!"plan step {index} ({step.qualified}) failed")
  return trim output

/-- Runs steps from the given number on; the state at the end and the outputs that were added to
results. -/
def runSteps (k : Kernel) : Nat → List PlanStep → Variables → Task Failure (Variables × List String)
  | _, [], state => return (state, [])
  | index, step :: steps, state => do
    let output ← runStep k index step state
    let (state, added) ← runSteps k (index + 1) steps (record step output state)
    return (state, if step.appendTo.isSome then output :: added else added)

/-- The state and the result once all steps have run. -/
def finish (state : Variables) (added : List String) : PlanOutcome :=
  let state := if added.isEmpty then state else state.set resultName ("\n".intercalate added)
  let collected := (state.get? resultName).getD ""
  { result := if collected.isEmpty then state.input else collected, state }

/-- Runs a plan. -/
def run (k : Kernel) (p : Plan) (initial : Variables) : Task Failure PlanOutcome := do
  let (state, added) ← runSteps k 1 p.steps initial
  return finish state added

end Plan

end Orchestration
