import Orchestration.Plan.Run
import Orchestration.Planner.Create
import Orchestration.Services
import Orchestration.Tools.Basic

/-!
# Running tools

A call of a tool is answered with a text, with the words for why it failed, or not at all if its arguments do
not fit. Arguments that a tool does not know are passed over.

* `toolCollection` — the collection that a call means: the one it names, blanks around the name aside, or the
  one of the configuration.
* `Tool.run` — the answer to a call.
-/

namespace Orchestration

open Text

/-- How a call of a tool is answered. -/
inductive ToolAnswer where
  /-- with a text -/
  | text (text : String)
  /-- with the words for why it failed -/
  | failure (text : String)
  /-- not at all: the arguments do not fit -/
  | rejected
  deriving DecidableEq, Repr

/-- The collection that a call means. -/
def toolCollection (c : Config) (requested : Option String) : String :=
  match (requested.map trim).filter (!·.isEmpty) with
  | some name => name
  | none => c.storage.defaultCollection

namespace ToolEffect

/-- An argument that may be left out. -/
def maybe {α : Type} (f : Decoder.Fields) (name : String) (decode : Decoder α) : Option (Option α) :=
  f.withDefault name none (.option decode)

/-- The most memories that are recalled. -/
def mostRecalled : Nat := 50

/-- How many memories are recalled when a call leaves it open. -/
def usuallyRecalled : Nat := 5

/-- The memory, or the words for why there is none. -/
def memoryOf (s : Services) : Effect String Memory.Semantic :=
  Effect.ofExcept (s.requireMemory.mapError (·.headline))

/-- The outcome of a question to the memory, with the words for what failed. -/
def orWords {α : Type} (what : String) (e : Effect MemoryError α) : Effect String α :=
  e.mapError fun e => s!"{what} failed: {e.message}"

/-- A key of the caller's choice, unless it is blank, or a fresh one. -/
def keyOr (requested : Option String) : Effect String String :=
  match requested.filter (!isBlankText ·) with
  | some key => return key
  | none => Effect.ask .freshKey

/-- Saves a text. -/
def saveMemory (s : Services) (text : String) (key collection description metadata : Option String) :
    Effect String String := do
  if isBlankText text then throw "text must not be empty"
  let memory ← memoryOf s
  let collection := toolCollection s.config collection
  let key ← keyOr key
  let key ← orWords "save" (memory.save collection text key description metadata)
  return (Json.ofFields [("key", .string key), ("collection", .string collection)]).compact

/-- Searches by meaning. -/
def recallMemory (s : Services) (query : String) (collection : Option String) (limit : Option Nat)
    (least : Option Float) : Effect String String := do
  let memory ← memoryOf s
  let limit := max 1 (min mostRecalled (limit.getD usuallyRecalled))
  let least := least.getD s.config.memory.defaultRelevance
  if !(0.0 ≤ least && least ≤ 1.0) then throw "min_relevance must be between 0.0 and 1.0"
  let found ← orWords "search"
    (memory.search (toolCollection s.config collection) query limit least false)
  return (Json.ofFields [
    ("memories", .array (found.map (·.toJson.sorted))),
    ("total", .ofNat found.length)]).compact

/-- Removes what is saved under a key. -/
def removeMemory (s : Services) (key : String) (collection : Option String) :
    Effect String String := do
  let memory ← memoryOf s
  let collection := toolCollection s.config collection
  orWords "remove" (memory.remove collection key)
  return (Json.ofFields [("removed", .string key), ("collection", .string collection)]).compact

/-- Lists the collections. -/
def listCollections (s : Services) : Effect String String := do
  let names ← orWords "listing collections" (s.store.call .collections)
  return (Json.ofFields [("collections", .ofStrings names)]).compact

/-- Lists the functions, those of one plugin or all. -/
def listFunctions (s : Services) (plugin : Option String) : Except String String := do
  let registry := s.kernel.registry
  let views ← match plugin with
    | some plugin => (registry.pluginViews plugin).mapError (·.message)
    | none => pure registry.views
  return (Json.array (views.map (·.toJson))).compact

/-- Calls a function. -/
def invokeFunction (s : Services) (function : String) (input : Option String)
    (arguments : Dictionary String) : Effect String String := do
  let f ← Effect.ofExcept ((s.kernel.registry.find function).mapError (·.message))
  let v := Variables.ofList arguments.entries
  let v := match input with
    | some input => v.setInput input
    | none => v
  (f.invoke v).mapError (·.report)

/-- Makes a plan, and runs it if that is wanted. -/
def makePlan (s : Services) (goal : String) (planner : Option String) (execute : Bool) :
    Effect String String := do
  let planner ← match planner with
    | some name => Effect.ofExcept (Planner.parse name)
    | none => pure .sequential
  let plan ← (createPlan planner s.kernel s.config.planner goal).perform.mapError fun e =>
    s!"planning failed: {e.message}"
  if !execute then return plan.toJson.compact
  let outcome ← (plan.run s.kernel (.ofInput goal)).perform.mapError fun e =>
    s!"plan execution failed: {e.report}"
  return (Json.ofFields [("plan", plan.toJson.sorted), ("result", .string outcome.result)]).compact

/-- What a tool does with arguments that fit. -/
def ofFields? (s : Services) (tool : Tool) (f : Decoder.Fields) : Option (Effect String String) :=
  match tool with
  | .saveMemory => do
    return saveMemory s (← f.required "text" .string) (← maybe f "key" .string)
      (← maybe f "collection" .string) (← maybe f "description" .string)
      (← maybe f "additional_metadata" .string)
  | .recallMemory => do
    return recallMemory s (← f.required "query" .string) (← maybe f "collection" .string)
      (← maybe f "limit" (.natural Number.largest64)) (← maybe f "min_relevance" .float)
  | .removeMemory => do
    return removeMemory s (← f.required "key" .string) (← maybe f "collection" .string)
  | .listCollections => some (listCollections s)
  | .listFunctions => do
    return Effect.ofExcept (listFunctions s (← maybe f "plugin" .string))
  | .invokeFunction => do
    let arguments ← maybe f "variables" .texts
    return invokeFunction s (← f.required "function" .string) (← maybe f "input" .string)
      (arguments.getD ∅)
  | .createPlan => do
    return makePlan s (← f.required "goal" .string) (← maybe f "planner" .string)
      ((← maybe f "execute" .bool).getD false)

end ToolEffect

namespace Tool

/-- The answer to a call with some arguments. -/
def run (s : Services) (tool : Tool) (arguments : Json) : Program Outside ToolAnswer :=
  match (Decoder.record tool.argumentNames (ToolEffect.ofFields? s tool)).read? arguments.compact with
  | none => return .rejected
  | some effect => do
    match ← effect.run with
    | .ok text => return .text text
    | .error text => return .failure text

/-- The answer to a call of the tool of a name. -/
def runNamed (s : Services) (name : String) (arguments : Json) : Program Outside ToolAnswer :=
  match ofName? name with
  | some tool => tool.run s arguments
  | none => return .rejected

end Tool

end Orchestration
