import Orchestration.Ai.Services
import Orchestration.Template
import Orchestration.Variables

/-!
# Functions

A function has a description, which planners and people see, and a handler, which works on variables.

* `fillDefaults` — parameters that are unset or empty take their default before the handler sees them.
* `Function.ofPrompt` — a function that has a model continue a prompt; its parameters are the
  variables the prompt refers to.
-/

namespace Orchestration

/-- A parameter of a function. -/
structure Parameter where
  /-- its name -/
  name : String
  /-- what it is for -/
  description : String
  /-- what it is when nothing is given -/
  default : Option String := none
  deriving DecidableEq, Inhabited

/-- What is known of a function from outside. -/
structure FunctionView where
  /-- the plugin it belongs to -/
  plugin : String
  /-- its name in the plugin -/
  name : String
  /-- what it does -/
  description : String
  /-- its parameters -/
  parameters : List Parameter
  /-- whether it has a model continue a prompt -/
  isSemantic : Bool
  deriving DecidableEq, Inhabited

/-- The plugin of the functions that were registered without one. -/
def globalPlugin : String := "_GLOBAL_FUNCTIONS_"

/-- The name of a function together with its plugin; the global plugin is not named. -/
def qualifiedName (plugin name : String) : String :=
  if plugin = globalPlugin then name else plugin ++ "." ++ name

namespace FunctionView

/-- The name of the function together with its plugin. -/
def qualified (v : FunctionView) : String := qualifiedName v.plugin v.name

end FunctionView

namespace Parameter

/-- A parameter as a document. -/
def toJson (p : Parameter) : Json :=
  .object <| [("name", .string p.name), ("description", .string p.description)] ++
    match p.default with
    | some d => [("default_value", .string d)]
    | none => []

/-- Reads a parameter from a document. -/
def decoder : Decoder Parameter := .record ["name", "description", "default_value"] fun f => do
  return {
    name := ← f.required "name" .string
    description := ← f.required "description" .string
    default := ← f.withDefault "default_value" none (.option .string) }

end Parameter

namespace FunctionView

/-- A view as a document. -/
def toJson (v : FunctionView) : Json := .object [
  ("plugin_name", .string v.plugin),
  ("name", .string v.name),
  ("description", .string v.description),
  ("parameters", .array (v.parameters.map (·.toJson))),
  ("is_semantic", .bool v.isSemantic)]

/-- Reads a view from a document. -/
def decoder : Decoder FunctionView :=
  .record ["plugin_name", "name", "description", "parameters", "is_semantic"] fun f => do
    return {
      plugin := ← f.required "plugin_name" .string
      name := ← f.required "name" .string
      description := ← f.required "description" .string
      parameters := ← f.required "parameters" (.list Parameter.decoder)
      isSemantic := ← f.required "is_semantic" .bool }

end FunctionView

/-- A function that can be called. -/
structure Function where
  /-- what is known of it -/
  view : FunctionView
  /-- what it does -/
  handler : Variables → Effect Failure String

/-- Gives a parameter its default, if it has one and is unset or empty. -/
def fillDefault (v : Variables) (p : Parameter) : Variables :=
  match p.default with
  | some value => if ((v.get? p.name).getD "").isEmpty then v.set p.name value else v
  | none => v

/-- Gives all parameters their defaults, one after another. -/
def fillDefaults (parameters : List Parameter) (v : Variables) : Variables :=
  parameters.foldl fillDefault v

namespace Function

/-- Calls a function. -/
def invoke (f : Function) (v : Variables) : Effect Failure String :=
  f.handler (fillDefaults f.view.parameters v)

/-- A function with a handler of its own. -/
def native (name description : String) (parameters : List Parameter)
    (handler : Variables → Effect Failure String) : Function where
  view := { plugin := globalPlugin, name, description, parameters, isSemantic := false }
  handler

/-- A function that has a model continue a prompt. -/
def ofPrompt (name description : String) (template : Template) (settings : CompletionSettings)
    (completion : Completion) : Function where
  view := {
    plugin := globalPlugin, name, description
    parameters := template.variableNames.map fun n => { name := n, description := "" }
    isSemantic := true }
  handler v := (completion.complete (template.render v) settings).mapError fun e : AiError => (e : Failure)

/-- The function as one of a plugin. -/
def inPlugin (plugin : String) (f : Function) : Function :=
  { f with view := { f.view with plugin } }

end Function

end Orchestration
