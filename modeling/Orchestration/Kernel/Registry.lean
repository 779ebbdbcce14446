import Orchestration.Kernel.Function

/-!
# The registry

The functions that can be called, by plugin and name. Look-ups do not mind the case of letters; a
listing shows each name as it was spelled when it was registered.

* `Registry.add` — a function replaces the one of its plugin and name.
* `Registry.get`, `Registry.find` — look-up by plugin and name, or by both in one text.
* `splitQualified` — a text is cut at its last dot; without a dot, or with nothing before it, it names
  a function of the global plugin.
-/

namespace Orchestration

open Text

/-- The functions of a plugin. -/
structure Plugin where
  /-- the name, as it was first spelled -/
  name : String
  /-- the functions, by the small forms of their names -/
  functions : Dictionary Function := ∅

/-- Functions by plugin and name. -/
structure Registry where
  /-- the plugins, by the small forms of their names -/
  plugins : Dictionary Plugin := ∅

/-- The plugin meant by a spelling: nothing means the global plugin. -/
def pluginOrGlobal (plugin : String) : String := if plugin.isEmpty then globalPlugin else plugin

/-- The plugin and the function that a qualified name means. -/
def splitQualified (name : String) : String × String :=
  match splitLast? '.' name.toList with
  | some (plugin, function) => (if plugin.isEmpty then globalPlugin else .ofList plugin, .ofList function)
  | none => (globalPlugin, name)

namespace Registry

instance : EmptyCollection Registry := ⟨{}⟩

/-- Puts a function into a plugin, in place of the one of its name. -/
def add (r : Registry) (plugin : String) (f : Function) : Registry :=
  let plugin := pluginOrGlobal plugin
  let held := (r.plugins.get? (lower plugin)).getD { name := plugin }
  let functions := held.functions.insert (lower f.view.name) (f.inPlugin plugin)
  ⟨r.plugins.insert (lower plugin) { held with functions }⟩

/-- The view of a function once it is in a plugin. -/
def viewIn (plugin : String) (f : Function) : FunctionView := (f.inPlugin (pluginOrGlobal plugin)).view

/-- The function of a plugin and name. -/
def get? (r : Registry) (plugin name : String) : Option Function :=
  (r.plugins.get? (lower (pluginOrGlobal plugin))).bind (·.functions.get? (lower name))

/-- The function of a plugin and name, or the failure to find it. -/
def get (r : Registry) (plugin name : String) : Except KernelError Function :=
  match r.get? plugin name with
  | some f => .ok f
  | none => .error (.functionNotFound (pluginOrGlobal plugin) name)

/-- The function that a qualified name means. -/
def find (r : Registry) (name : String) : Except KernelError Function :=
  let (plugin, function) := splitQualified name
  r.get plugin function

/-- Whether there is a plugin of that name. -/
def containsPlugin (r : Registry) (plugin : String) : Bool := r.plugins.contains (lower plugin)

/-- The names of the plugins. -/
def pluginNames (r : Registry) : List String := r.plugins.values.map (·.name)

/-- The views of the functions of a plugin. -/
def Plugin.views (p : Plugin) : List FunctionView := p.functions.values.map (·.view)

/-- The views of the functions of a plugin, or the failure to find it. -/
def pluginViews (r : Registry) (plugin : String) : Except KernelError (List FunctionView) :=
  match r.plugins.get? (lower plugin) with
  | some p => .ok (Plugin.views p)
  | none => .error (.pluginNotFound plugin)

/-- The views of all functions, by plugin and name. -/
def views (r : Registry) : List FunctionView := r.plugins.values.flatMap Plugin.views

end Registry

end Orchestration
