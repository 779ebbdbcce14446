import Orchestration.Commands.Basic

/-!
# Function commands
-/

namespace Orchestration.Commands

/-- The line about a parameter. -/
def parameterLine (p : Parameter) : String :=
  match p.default with
  | some d => s!"    - {p.name}: {p.description} (default: {d})\n"
  | none => s!"    - {p.name}: {p.description}\n"

/-- The lines about a function. -/
def viewLines (v : FunctionView) : String :=
  let kind := if v.isSemantic then "semantic" else "native"
  s!"  {v.qualified} ({kind}): {v.description}\n" ++ .join (v.parameters.map parameterLine)

/-- The lines about the functions of a plugin; nothing if it has none. -/
def pluginLines (views : List FunctionView) : String :=
  match views with
  | [] => ""
  | first :: _ => s!"[{first.plugin}]\n" ++ .join (views.map viewLines)

/-- The functions under a heading for each plugin, of one plugin or all. -/
def functionListing (k : Kernel) (plugin : Option String) : Except KernelError String := do
  let names := match plugin with
    | some name => [name]
    | none => k.registry.pluginNames
  let parts ← names.mapM fun name => return pluginLines (← k.registry.pluginViews name)
  return .join parts

/-- Shows the functions. -/
def functions (s : Services) (plugin : Option String) : Effect Failure Unit := do
  let listing ← Effect.ofExcept
    ((functionListing s.kernel plugin).mapError fun e : KernelError => (e : Failure))
  Effect.ask (.print listing)

/-- Calls a function and shows what it returns. -/
def invoke (s : Services) (function : String) (input : Option String) (pairs : List String) :
    Effect Failure Unit := do
  let f ← Effect.ofExcept
    ((s.kernel.registry.find function).mapError fun e : KernelError => (e : Failure))
  let v ← Effect.ofExcept (parseVariables pairs)
  let v := match input with
    | some input => v.setInput input
    | none => v
  Effect.printLine (← f.invoke v)

end Orchestration.Commands
