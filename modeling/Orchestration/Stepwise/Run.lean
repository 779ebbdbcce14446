import Orchestration.Planner.Prompts
import Orchestration.Planner.Selection
import Orchestration.Stepwise.Scratchpad

/-!
# Stepwise runs

A model works towards an answer turn by turn: it is shown the question, the functions and its previous
turns, and answers with a thought and an action, which is carried out, or with the final answer. An action
that fails is observed like any other.

* `Stepwise.takeTurn` — one turn after the model has answered.
* `Stepwise.turns` — turns until the final answer, or until there are none left.
* `Stepwise.run` — the whole run.
-/

namespace Orchestration

open Text Planner

/-- How a stepwise run ends. -/
structure StepwiseResult where
  /-- the final answer -/
  answer : String
  /-- all turns -/
  steps : List Step
  /-- how often the model was asked -/
  iterations : Nat
  /-- how often each action was named -/
  functionCounts : Dictionary Nat

namespace StepwiseResult

/-- How many actions there were, in all and of each name. -/
def summary (counts : Dictionary Nat) : String :=
  let details := counts.entries.map fun e => s!"{e.1}({e.2})"
  let list := ", ".intercalate details
  let total := counts.values.foldr (· + ·) 0
  s!"{total} ({list})"

/-- A turn as a document. -/
def stepJson (s : Step) : Json := .object [
  ("thought", .string s.thought),
  ("action", .string s.action),
  ("action_variables", .ofTexts s.actionVariables),
  ("observation", .string s.observation),
  ("final_answer", .string s.finalAnswer),
  ("original_response", .string s.originalResponse)]

/-- The result of a run as a document. -/
def toJson (r : StepwiseResult) : Json := .object [
  ("answer", .string r.answer),
  ("steps", .array (r.steps.map stepJson)),
  ("iterations", .ofNat r.iterations),
  ("function_counts", .object (r.functionCounts.entries.map fun e => (e.1, .ofNat e.2)))]

end StepwiseResult

namespace Stepwise

/-- How often each action was named in some turns. -/
def countActions (steps : List Step) : Dictionary Nat :=
  (steps.filter (!·.action.isEmpty)).foldl
    (fun counts s => counts.insert s.action ((counts.get? s.action).getD 0 + 1)) ∅

/-- The result of a run that ended with the given turns. -/
def finish (answer : String) (steps : List Step) : StepwiseResult where
  answer
  steps
  iterations := steps.length
  functionCounts := countActions steps

/-- What a run works with. -/
structure Setting where
  /-- the kernel -/
  kernel : Kernel
  /-- the configuration -/
  config : Config.Planner
  /-- the model -/
  completion : Completion
  /-- the functions that may be called -/
  functions : List FunctionView
  /-- the question -/
  question : String

/-- The prompt after some turns. -/
def promptAfter (s : Setting) (steps : List Step) : String :=
  stepwisePrompt.render <|
    (((∅ : Variables).set "question" s.question).set "function_descriptions" (manuals s.functions)).set
      "agent_scratch_pad" (Scratchpad.write steps s.config.maxTokens)

/-- The settings of the requests to the model. -/
def settings (c : Config.Planner) : CompletionSettings where
  maxTokens := c.maxTokens
  stopSequences := [Step.observationMark, "\n" ++ Step.thoughtMark]

/-- The function that an action names, among those that may be called. -/
def actionFunction? (s : Setting) (action : String) : Except Failure Function :=
  let (plugin, name) := splitQualified (trim action)
  match s.functions.find? fun v => sameAsciiLetters v.plugin plugin && sameAsciiLetters v.name name with
  | none => .error (.text s!"function {action} is not available")
  | some v => (s.kernel.registry.get v.plugin v.name).mapError fun e : KernelError => (e : Failure)

/-- Calls the function that an action names. -/
def callAction (s : Setting) (action : String) (arguments : Dictionary String) :
    Task Failure String := do
  let f ← Task.ofExcept (actionFunction? s action)
  Task.call f (.ofList arguments.entries)

/-- What is observed of the outcome of an action. -/
def observe (action : String) : Except Failure String → String
  | .ok output => if isBlankText output then "Got no result from action" else output
  | .error e => s!"Error invoking action {action}: {e.report}"

/-- A turn without a final answer, once its action has been carried out. -/
def takeTurn (s : Setting) (step : Step) : Task PlanningError Step :=
  if step.action.isEmpty then pure step
  else do
    let outcome ← (callAction s step.action step.actionVariables).attempt
    return { step with observation := observe step.action outcome }

/-- At most so many further turns after the given ones. -/
def turns (s : Setting) : Nat → List Step → Task PlanningError StepwiseResult
  | 0, _ => throw (.maxIterationsExceeded s.config.maxIterations)
  | left + 1, steps => do
    let response ← (Task.complete s.completion (promptAfter s steps) (settings s.config)).mapError .ai
    let step := Step.parse response
    if step.finalAnswer.isEmpty then
      let step ← takeTurn s step
      turns s left (steps ++ [step])
    else return finish step.finalAnswer (steps ++ [step])

/-- Works towards an answer to a question. -/
def run (k : Kernel) (c : Config.Planner) (question : String) :
    Task PlanningError StepwiseResult := do
  if isBlankText question then throw .invalidGoal
  let completion ← Task.ofExcept (k.requireCompletion.mapError .kernel)
  let functions ← available k c question
  turns ⟨k, c, completion, functions, question⟩ c.maxIterations []

end Stepwise

end Orchestration
