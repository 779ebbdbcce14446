import Orchestration.Json.Decode
import Orchestration.Json.Printer
import Orchestration.Kernel.Function

/-!
# Plans

A plan is a goal and the calls that lead to it, in order. A step names a function and its arguments,
the variables that take its output, and at times a result variable that its output is added to.

* `Plan.toText`, `Plan.ofText` — a plan as a document and back.
-/

namespace Orchestration

/-- A step of a plan. -/
structure PlanStep where
  /-- the plugin of the function -/
  plugin : String
  /-- the name of the function -/
  function : String
  /-- the arguments by name; they may refer to variables -/
  parameters : Dictionary String := ∅
  /-- the variables that take the output -/
  outputs : List String := []
  /-- the result variable that the output is added to -/
  appendTo : Option String := none
  deriving DecidableEq

/-- A plan. -/
structure Plan where
  /-- what the plan is for -/
  goal : String
  /-- the calls, in order -/
  steps : List PlanStep := []
  /-- the result variables that steps add to -/
  outputs : List String := []
  deriving DecidableEq

namespace PlanStep

/-- The name of the function together with its plugin. -/
def qualified (s : PlanStep) : String := qualifiedName s.plugin s.function

/-- The step with an argument more. -/
def withParameter (s : PlanStep) (name value : String) : PlanStep :=
  { s with parameters := s.parameters.insert name value }

/-- The step with one more variable that takes its output. -/
def withOutput (s : PlanStep) (name : String) : PlanStep :=
  { s with outputs := s.outputs ++ [name] }

/-- The step with its output added to a result variable. -/
def appendingTo (s : PlanStep) (name : String) : PlanStep := { s with appendTo := some name }

/-- A step as a document. -/
def toJson (s : PlanStep) : Json :=
  .object <| [
    ("plugin_name", .string s.plugin),
    ("function_name", .string s.function),
    ("parameters", .ofTexts s.parameters),
    ("outputs", .ofStrings s.outputs)] ++
    match s.appendTo with
    | some name => [("append_to_result", .string name)]
    | none => []

/-- Reads a step from a document. -/
def decoder : Decoder PlanStep :=
  .record ["plugin_name", "function_name", "parameters", "outputs", "append_to_result"] fun f => do
    return {
      plugin := ← f.required "plugin_name" .string
      function := ← f.required "function_name" .string
      parameters := ← f.withDefault "parameters" ∅ .texts
      outputs := ← f.withDefault "outputs" [] (.list .string)
      appendTo := ← f.withDefault "append_to_result" none (.option .string) }

end PlanStep

namespace Plan

/-- The plan with a step more; its result variable is noted once. -/
def add (p : Plan) (s : PlanStep) : Plan where
  goal := p.goal
  steps := p.steps ++ [s]
  outputs :=
    match s.appendTo with
    | some name => if p.outputs.contains name then p.outputs else p.outputs ++ [name]
    | none => p.outputs

/-- A plan of several steps. -/
def ofSteps (goal : String) (steps : List PlanStep) : Plan := steps.foldl add { goal }

/-- A plan as a document. -/
def toJson (p : Plan) : Json := .object [
  ("goal", .string p.goal),
  ("steps", .array (p.steps.map (·.toJson))),
  ("outputs", .ofStrings p.outputs)]

/-- Reads a plan from a document. -/
def decoder : Decoder Plan := .record ["goal", "steps", "outputs"] fun f => do
  return {
    goal := ← f.required "goal" .string
    steps := ← f.withDefault "steps" [] (.list PlanStep.decoder)
    outputs := ← f.withDefault "outputs" [] (.list .string) }

/-- A plan as the text of a document. -/
def toText (p : Plan) : String := p.toJson.pretty

/-- The plan that the text of a document describes. -/
def ofText? (text : String) : Option Plan := decoder.read? text

end Plan

end Orchestration
