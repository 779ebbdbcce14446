import Orchestration.Json.Decode

/-!
# Tools

The tools that a model in another program may use: what they are called, what they are for, and what
arguments they take.
-/

namespace Orchestration

/-- A tool. -/
inductive Tool where
  | createPlan
  | invokeFunction
  | listCollections
  | listFunctions
  | recallMemory
  | removeMemory
  | saveMemory
  deriving DecidableEq, Repr

/-- What kind of value an argument is. -/
inductive ArgumentKind where
  /-- a text -/
  | text
  /-- a natural number -/
  | count
  /-- a number -/
  | number
  /-- a truth value -/
  | flag
  /-- texts under names -/
  | texts
  deriving DecidableEq, Repr

/-- An argument of a tool. -/
structure ToolArgument where
  /-- its name -/
  name : String
  /-- what it is for -/
  description : String
  /-- what kind of value it is -/
  kind : ArgumentKind := .text
  /-- whether it must be given -/
  isRequired : Bool := false
  deriving DecidableEq, Repr

namespace Tool

/-- All tools, in the order of their names. -/
def all : List Tool :=
  [.createPlan, .invokeFunction, .listCollections, .listFunctions, .recallMemory, .removeMemory, .saveMemory]

/-- What a tool is called. -/
def name : Tool → String
  | .createPlan => "create_plan"
  | .invokeFunction => "invoke_function"
  | .listCollections => "list_collections"
  | .listFunctions => "list_functions"
  | .recallMemory => "recall_memory"
  | .removeMemory => "remove_memory"
  | .saveMemory => "save_memory"

/-- The tool of a name. -/
def ofName? (name : String) : Option Tool := all.find? (·.name = name)

/-- What a tool is for. -/
def description : Tool → String
  | .createPlan =>
    "Create a plan of function calls for a goal using the sequential, action, or basic planner. " ++
      "Optionally execute it."
  | .invokeFunction =>
    "Invoke a kernel function by its fully qualified name (plugin.function) and return its output."
  | .listCollections => "List the memory collections in the store."
  | .listFunctions =>
    "List the kernel functions available to invoke_function and the planners, with their parameters."
  | .recallMemory =>
    "Search semantic memory with a natural language query. Returns the most relevant memories with " ++
      "their relevance scores."
  | .removeMemory => "Remove a memory by key. Removing a key that does not exist is not an error."
  | .saveMemory =>
    "Save text to semantic memory so it can be recalled later by meaning. Returns the key it was " ++
      "stored under."

/-- The arguments of a tool. -/
def arguments : Tool → List ToolArgument
  | .createPlan => [
    { name := "goal", description := "Natural language goal to plan for", isRequired := true },
    { name := "planner", description := "Planner to use: 'sequential' (default), 'action', or 'basic'" },
    { name := "execute"
      description := "Run the plan after creating it and return its result (default: false)"
      kind := .flag }]
  | .invokeFunction => [
    { name := "function"
      description := "Fully qualified function name, e.g. 'text.uppercase' or 'math.add'"
      isRequired := true },
    { name := "input", description := "The main input passed as the 'input' variable" },
    { name := "variables"
      description := "Additional named string arguments, e.g. \x7b\"amount\": \"3\"\x7d"
      kind := .texts }]
  | .listCollections => []
  | .listFunctions => [{ name := "plugin", description := "Only list functions of this plugin" }]
  | .recallMemory => [
    { name := "query"
      description := "Natural language query to search memories with"
      isRequired := true },
    { name := "collection"
      description := "Collection to search. Defaults to the configured collection." },
    { name := "limit"
      description := "Maximum number of results to return (1-50). Defaults to 5."
      kind := .count },
    { name := "min_relevance"
      description := "Minimum cosine relevance (0.0-1.0). Defaults to the configured relevance."
      kind := .number }]
  | .removeMemory => [
    { name := "key", description := "Key of the memory to remove", isRequired := true },
    { name := "collection"
      description := "Collection holding the memory. Defaults to the configured collection." }]
  | .saveMemory => [
    { name := "text", description := "The text to remember", isRequired := true },
    { name := "key", description := "Key to store the memory under. Generated when omitted." },
    { name := "collection"
      description := "Collection to save into. Defaults to the configured collection." },
    { name := "description", description := "Short description of the memory" },
    { name := "additional_metadata", description := "Free-form metadata string, often JSON" }]

/-- The names of the arguments of a tool. -/
def argumentNames (t : Tool) : List String := t.arguments.map (·.name)

/-- The arguments that must be given. -/
def requiredNames (t : Tool) : List String := (t.arguments.filter (·.isRequired)).map (·.name)

end Tool

/-- What a model is told about the tools as a whole. -/
def toolInstructions : String :=
  "skernel exposes semantic memory and a plugin kernel. Use save_memory and recall_memory for memory, " ++
    "list_functions and invoke_function to call plugins, and create_plan to let a planner chain " ++
    "functions toward a goal."

end Orchestration
