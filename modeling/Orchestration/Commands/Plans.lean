import Orchestration.Commands.Basic
import Orchestration.Plan.Run
import Orchestration.Planner.Create
import Orchestration.Stepwise.Run

/-!
# Planning commands
-/

namespace Orchestration.Commands

open Text

/-- The lines about a step of a plan. -/
def stepLines (number : Nat) (s : PlanStep) : List String :=
  let arguments := s.parameters.entries.map fun e => e.1 ++ "=" ++ preview 40 e.2
  let list := ", ".intercalate arguments
  let outputs := ", $".intercalate s.outputs
  [s!"{number}. {s.qualified}({list})"] ++
    (if s.outputs.isEmpty then [] else [s!"   -> ${outputs}"]) ++
    match s.appendTo with
    | some target => [s!"   appends to {target}"]
    | none => []

/-- The lines about steps, numbered from the given number on. -/
def allStepLines : Nat → List PlanStep → List String
  | _, [] => []
  | number, s :: rest => stepLines number s ++ allStepLines (number + 1) rest

/-- The lines about a plan. -/
def planLines (p : Plan) : List String :=
  [s!"Goal: {p.goal}"] ++ (if p.steps.isEmpty then ["(no steps)"] else []) ++ allStepLines 1 p.steps

/-- A failure to plan as a failure of a command. -/
def liftPlanning {α : Type} (t : Task PlanningError α) : Effect Failure α :=
  t.perform.mapError fun e : PlanningError => (e : Failure)

/-- Makes a plan, shows it, and runs it if that is wanted. -/
def plan (s : Services) (goal : String) (planner : Planner) (execute asJson : Bool) :
    Effect Failure Unit := do
  let plan ← liftPlanning (createPlan planner s.kernel s.config.planner goal)
  if asJson then Effect.printLine plan.toText else (planLines plan).forM Effect.printLine
  if execute then
    let outcome ← (plan.run s.kernel (.ofInput goal)).perform
    ["", "Result:", outcome.result].forM Effect.printLine

/-- Named texts between braces, in quotes. -/
def quotedTexts (d : Dictionary String) : String :=
  let parts := d.entries.map fun e => quoted e.1 ++ ": " ++ quoted e.2
  "\x7b" ++ ", ".intercalate parts ++ "\x7d"

/-- The lines about a turn. -/
def turnLines (number : Nat) (s : Step) : List String :=
  [s!"[{number}] thought: {s.thought}"] ++
    if s.action.isEmpty then []
    else [
      s!"    action: {s.action} {quotedTexts s.actionVariables}",
      s!"    observation: {preview 200 s.observation}"]

/-- The lines about turns, numbered from the given number on. -/
def allTurnLines : Nat → List Step → List String
  | _, [] => []
  | number, s :: rest => turnLines number s ++ allTurnLines (number + 1) rest

/-- Answers a question turn by turn and shows the answer. -/
def stepwise (s : Services) (question : String) (verbose : Bool) : Effect Failure Unit := do
  let r ← liftPlanning (Stepwise.run s.kernel s.config.planner question)
  if verbose then (allTurnLines 1 r.steps ++ [""]).forM Effect.printLine
  let summary := StepwiseResult.summary r.functionCounts
  [r.answer, "", s!"iterations: {r.iterations}, function calls: {summary}"].forM Effect.printLine

end Orchestration.Commands
