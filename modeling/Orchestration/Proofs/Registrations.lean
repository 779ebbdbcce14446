import Mathlib.Data.List.Induction
import Orchestration.Proofs.Registry
import Orchestration.Proofs.Traversals

/-!
# What registrations leave

A registry is what a list of registrations leaves: of the functions whose plugin and name are spellings of the
same two names, the last one. Look-ups and listings show exactly these functions, in the order of the small forms.

* `Registration`, `latest?` — a function put into a plugin, and the one that two names mean after a list of these.
* `Registry.get?_ofList` — a look-up finds what the names mean.
* `Registry.Shows` — what look-ups and listings of a registry show of the registrations.
* `Kernel.shows_registrations` — every kernel shows what was registered in it.
-/

namespace Orchestration

open Text

/-- A function that was put into a plugin. -/
structure Registration where
  /-- the plugin, as it was spelled; nothing means the global plugin -/
  plugin : String
  /-- the function -/
  function : Function

namespace Registration

/-- The two names are spellings of those that the function was registered under. -/
def Answers (g : Registration) (plugin name : String) : Prop :=
  lower (pluginOrGlobal g.plugin) = lower (pluginOrGlobal plugin) ∧ lower g.function.view.name = lower name

instance (g : Registration) (plugin name : String) : Decidable (g.Answers plugin name) :=
  inferInstanceAs (Decidable (_ ∧ _))

/-- The function as it is held: with the plugin in its view. -/
def held (g : Registration) : Function := g.function.inPlugin (pluginOrGlobal g.plugin)

end Registration

/-- The function that a plugin and a name mean after registrations: the last one that was registered under
spellings of the two names. -/
def latest? (log : List Registration) (plugin name : String) : Option Function :=
  (log.reverse.find? (·.Answers plugin name)).map (·.held)

theorem latest?_concat (log : List Registration) (g : Registration) (plugin name : String) :
    latest? (log ++ [g]) plugin name =
      if g.Answers plugin name then some g.held else latest? log plugin name := by
  rw [latest?, List.reverse_concat, List.find?_cons]
  by_cases hanswers : g.Answers plugin name
  · simp [hanswers]
  · simp [hanswers, latest?]

namespace Registry

variable {r : Registry} {plugin name : String} {f : Function}

/-- What registrations leave. -/
def ofList (log : List Registration) : Registry := log.foldl (fun r g => r.add g.plugin g.function) ∅

theorem ofList_concat (log : List Registration) (g : Registration) :
    ofList (log ++ [g]) = (ofList log).add g.plugin g.function := by
  simp [ofList]

/-! ### Look-ups -/

/-- **A registration** answers the spellings of its two names, and no other look-up changes. -/
theorem get?_add (r : Registry) (g : Registration) (plugin name : String) :
    (r.add g.plugin g.function).get? plugin name =
      if g.Answers plugin name then some g.held else r.get? plugin name := by
  rw [get?, add, Dictionary.get?_insert, get?]
  by_cases hplugin : lower (pluginOrGlobal plugin) = lower (pluginOrGlobal g.plugin)
  · rw [if_pos hplugin, Option.bind_some, Dictionary.get?_insert]
    by_cases hname : lower name = lower g.function.view.name
    · rw [if_pos hname, if_pos ⟨hplugin.symm, hname.symm⟩]
      rfl
    · -- another function of the plugin, if there was one before
      rw [if_neg hname, if_neg fun h => hname h.2.symm, hplugin]
      cases r.plugins.get? (lower (pluginOrGlobal g.plugin)) <;> rfl
  · rw [if_neg hplugin, if_neg fun h => hplugin h.1.symm]

/-- **A look-up finds what the names mean.** -/
theorem get?_ofList (log : List Registration) (plugin name : String) :
    (ofList log).get? plugin name = latest? log plugin name := by
  induction log using List.reverseRecOn with
  | nil => rfl
  | append_singleton log g ih => rw [ofList_concat, get?_add, latest?_concat, ih]

theorem filed_ofList (log : List Registration) : (ofList log).Filed := by
  induction log using List.reverseRecOn with
  | nil => exact filed_empty
  | append_singleton log g ih =>
    rw [ofList_concat]
    exact ih.add g.plugin g.function

/-- Every plugin is filed under the small form of its name. -/
def Named (r : Registry) : Prop :=
  ∀ pluginKey held, r.plugins.get? pluginKey = some held → lower held.name = pluginKey

/-- A plugin keeps the spelling that it came with, which is one of the names it is filed under. -/
theorem Named.add (h : r.Named) (plugin : String) (f : Function) : (r.add plugin f).Named := by
  intro pluginKey held hheld
  rw [Registry.add, Dictionary.get?_insert] at hheld
  split at hheld
  · next hkey =>
    obtain rfl := Option.some.inj hheld
    subst hkey
    cases hold : r.plugins.get? (lower (pluginOrGlobal plugin)) with
    | none => rfl
    | some old => exact h _ old hold
  · exact h pluginKey held hheld

theorem named_ofList (log : List Registration) : (ofList log).Named := by
  induction log using List.reverseRecOn with
  | nil => exact nofun
  | append_singleton log g ih =>
    rw [ofList_concat]
    exact ih.add g.plugin g.function

/-! ### Listings -/

/-- All functions, by plugin and name. -/
def functions (r : Registry) : List Function := r.plugins.values.flatMap (·.functions.values)

theorem views_eq_map_functions (r : Registry) : r.views = r.functions.map (·.view) := by
  rw [views, functions, List.map_flatMap]
  rfl

/-- What is listed is what can be looked up. -/
theorem Filed.mem_functions_iff (h : r.Filed) : f ∈ r.functions ↔ ∃ plugin name, r.get? plugin name = some f := by
  simp only [functions, List.mem_flatMap, Dictionary.mem_values_iff]
  constructor
  · rintro ⟨held, ⟨pluginKey, hplugin⟩, nameKey, hname⟩
    exact ⟨_, _, h.get?_of_held hplugin hname⟩
  · rintro ⟨plugin, name, hget⟩
    obtain ⟨held, hplugin, hname⟩ := get?_eq_some_iff.mp hget
    exact ⟨held, ⟨_, hplugin⟩, _, hname⟩

/-- The one view comes before the other: by the small form of the plugin, and then by that of the name. -/
def Precedes (a b : FunctionView) : Prop :=
  lower a.plugin < lower b.plugin ∨ lower a.plugin = lower b.plugin ∧ lower a.name < lower b.name

/-- **Views are listed in order**: the plugins by their keys, which are the small forms in the views, and the
functions of each plugin by theirs. -/
theorem Filed.views_ordered (h : r.Filed) : r.views.Pairwise Precedes := by
  have hkeys : ∀ e ∈ r.plugins.entries, ∀ v ∈ Plugin.views e.2, lower v.plugin = e.1 := by
    intro e he v hv
    obtain ⟨f, hf, rfl⟩ := List.mem_map.mp hv
    obtain ⟨nameKey, hname⟩ := Dictionary.mem_values_iff.mp hf
    exact (h e.1 e.2 nameKey f (Dictionary.mem_entries_iff.mp he) hname).2.1
  rw [views, Dictionary.values, List.flatMap_map, List.pairwise_flatMap]
  constructor
  · intro e he
    have hentry := Dictionary.mem_entries_iff.mp he
    rw [Plugin.views, Dictionary.values, List.map_map]
    refine List.pairwise_map.mpr (e.2.functions.ordered.imp_of_mem fun {a b} ha hb hlt => ?_)
    obtain ⟨-, hplugin, hname⟩ := h e.1 e.2 a.1 a.2 hentry (Dictionary.mem_entries_iff.mp ha)
    obtain ⟨-, hplugin', hname'⟩ := h e.1 e.2 b.1 b.2 hentry (Dictionary.mem_entries_iff.mp hb)
    refine .inr ⟨hplugin.trans hplugin'.symm, ?_⟩
    simpa [hname, hname'] using hlt
  · refine r.plugins.ordered.imp_of_mem fun {a b} ha hb hlt x hx y hy => .inl ?_
    rw [hkeys a ha x hx, hkeys b hb y hy]
    exact hlt

/-- **Plugin by plugin** the views make the whole listing: each name of a plugin leads back to it. -/
theorem Named.pluginViews_flatten (h : r.Named) :
    (r.pluginNames.mapM r.pluginViews).map List.flatten = .ok r.views := by
  have hviews : ∀ e ∈ r.plugins.entries, r.pluginViews e.2.name = .ok (Plugin.views e.2) := by
    intro e he
    have hentry := Dictionary.mem_entries_iff.mp he
    rw [pluginViews, h e.1 e.2 hentry, hentry]
  have hnames : r.pluginNames = r.plugins.entries.map (·.2.name) := by
    rw [pluginNames, Dictionary.values, List.map_map]
    rfl
  rw [hnames, mapM_map_eq_ok hviews, views, Dictionary.values, List.flatMap_map]
  rfl

/-! ### What a registry shows -/

/-- **What is shown** of registrations by the look-ups and listings of a registry. -/
structure Shows (r : Registry) (log : List Registration) : Prop where
  /-- two names lead to the function that they mean, or to the failure to find one -/
  found : ∀ plugin name, r.get plugin name =
    match latest? log plugin name with
    | some f => .ok f
    | none => .error (.functionNotFound (pluginOrGlobal plugin) name)
  /-- functions are listed if there are names that mean them -/
  meant : ∀ f, f ∈ r.functions ↔ ∃ plugin name, latest? log plugin name = some f
  /-- a function is listed by its view -/
  listed : r.views = r.functions.map (·.view)
  /-- no two are listed under spellings of the same two names, and the lesser names come first -/
  ordered : r.views.Pairwise Precedes
  /-- the plugins in a row, each with its functions, make the same listing -/
  grouped : (r.pluginNames.mapM r.pluginViews).map List.flatten = .ok r.views

theorem shows_ofList (log : List Registration) : (ofList log).Shows log where
  found plugin name := by
    cases hlatest : latest? log plugin name with
    | none => simp only [get, get?_ofList, hlatest]
    | some f => simp only [get, get?_ofList, hlatest]
  meant f := by simp only [(filed_ofList log).mem_functions_iff, get?_ofList]
  listed := views_eq_map_functions _
  ordered := (filed_ofList log).views_ordered
  grouped := (named_ofList log).pluginViews_flatten

end Registry

/-! ### Kernels -/

namespace Kernel

/-- What is registered by a step in putting a kernel together: nothing by a prompt without a model. -/
def registered (k : Kernel) : Assembly → List Registration
  | .register plugin f => [⟨plugin, f⟩]
  | .importPlugin plugin functions => functions.map fun f => ⟨plugin, f⟩
  | .registerPrompt plugin name description template settings =>
    match k.completion with
    | some completion => [⟨plugin, .ofPrompt name description ⟨template⟩ settings completion⟩]
    | none => []
  | .attachCompletion _ => []
  | .attachMemory _ => []

/-- What is registered by steps, one after another. -/
def registrations (k : Kernel) : List Assembly → List Registration
  | [] => []
  | step :: steps => k.registered step ++ (k.assemble step).registrations steps

theorem registry_importPlugin (k : Kernel) (plugin : String) (functions : List Function) :
    (k.importPlugin plugin functions).registry =
      functions.foldl (fun r f => r.add plugin f) k.registry := by
  induction functions generalizing k with
  | nil => rfl
  | cons f functions ih => exact ih (k.register plugin f)

/-- A step leaves in the registry what it registers. -/
theorem registry_assemble (k : Kernel) (step : Assembly) :
    (k.assemble step).registry =
      (k.registered step).foldl (fun r g => r.add g.plugin g.function) k.registry := by
  cases step with
  | register plugin f => rfl
  | importPlugin plugin functions =>
    rw [registered, List.foldl_map]
    exact registry_importPlugin k plugin functions
  | registerPrompt plugin name description template settings =>
    rw [assemble, registerPrompt, requireCompletion, registered]
    cases k.completion <;> rfl
  | attachCompletion completion => rfl
  | attachMemory memory => rfl

theorem registry_assembled (steps : List Assembly) :
    (assembled steps).registry = .ofList (registrations {} steps) := by
  suffices ∀ k : Kernel, (steps.foldl assemble k).registry =
      (k.registrations steps).foldl (fun r g => r.add g.plugin g.function) k.registry from this {}
  induction steps with
  | nil => exact fun _ => rfl
  | cons step steps ih =>
    intro k
    rw [List.foldl_cons, ih, registrations, List.foldl_append, registry_assemble]

/-- **A kernel shows what was registered in it**, in whatever order and spelling: the last function of each plugin and
name, and no other. -/
theorem shows_registrations (steps : List Assembly) :
    (assembled steps).registry.Shows (registrations {} steps) := by
  rw [registry_assembled]
  exact Registry.shows_ofList _

end Kernel

end Orchestration
