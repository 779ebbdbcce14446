import Orchestration.Kernel.Basic

/-!
# Registries that were filled by registration

A registry files a function under the small forms of the two names in its own view. Registration keeps it
so, in whatever order and spelling functions come, and so a view is enough to find its function again.

* `Assembly`, `Kernel.assembled` — the kernels that there are: those put together step by step.
* `Registry.Filed` — the invariant, and `Kernel.filed_assembled`, which says that it always holds.
* `Registry.mem_views_iff` — what is listed is what is held.
* `Registry.Filed.get_view` — the names in a view lead back to its function.
-/

namespace Orchestration

open Text

/-- A function that gives its input back. -/
def Function.echo (name : String) : Function := .native name "" [] fun v => pure v.input

/-! ### Kernels as they are put together -/

/-- A step in putting a kernel together. -/
inductive Assembly where
  /-- a function put into a plugin -/
  | register (plugin : String) (f : Function)
  /-- functions put into a plugin, one after another -/
  | importPlugin (plugin : String) (functions : List Function)
  /-- a function made of a prompt and put into a plugin -/
  | registerPrompt (plugin name description template : String) (settings : CompletionSettings)
  /-- a model that continues prompts -/
  | attachCompletion (completion : Completion)
  /-- a memory -/
  | attachMemory (memory : Memory.Semantic)

namespace Kernel

/-- The kernel after a step; without a model a prompt makes no function, and the kernel stays as it is. -/
def assemble (k : Kernel) : Assembly → Kernel
  | .register plugin f => k.register plugin f
  | .importPlugin plugin functions => k.importPlugin plugin functions
  | .registerPrompt plugin name description template settings =>
    match k.registerPrompt plugin name description template settings with
    | .ok (_, k) => k
    | .error _ => k
  | .attachCompletion completion => { k with completion := some completion }
  | .attachMemory memory => { k with memory := some memory }

/-- The kernel that steps put together, from nothing. -/
def assembled (steps : List Assembly) : Kernel := steps.foldl assemble {}

end Kernel

namespace Registry

variable {r : Registry} {plugin name : String} {f : Function}

/-! ### The invariant -/

/-- Every function is filed under the small forms of the plugin and the name in its view, and the plugin
has a name. -/
def Filed (r : Registry) : Prop :=
  ∀ pluginKey held nameKey f, r.plugins.get? pluginKey = some held →
    held.functions.get? nameKey = some f →
      f.view.plugin ≠ "" ∧ lower f.view.plugin = pluginKey ∧ lower f.view.name = nameKey

theorem filed_empty : Filed ∅ := by
  intro _ _ _ _ h
  cases h

theorem pluginOrGlobal_ne_empty (plugin : String) : pluginOrGlobal plugin ≠ "" := by
  rw [pluginOrGlobal]
  split
  · decide
  · next h => exact fun he => h (by rw [he]; rfl)

theorem pluginOrGlobal_of_ne_empty (h : plugin ≠ "") : pluginOrGlobal plugin = plugin := by
  rw [pluginOrGlobal, if_neg (by simpa using h)]

/-- The function that is added has the plugin in its view, whatever plugin it came with; every other one
stays where it was. -/
theorem Filed.add (h : r.Filed) (plugin : String) (f : Function) : (r.add plugin f).Filed := by
  intro pluginKey held nameKey g hplugin hname
  rw [Registry.add, Dictionary.get?_insert] at hplugin
  split at hplugin
  · next hkey =>
    -- the plugin that was added to: its functions are those it had, and the new one
    obtain rfl := Option.some.inj hplugin
    rw [Dictionary.get?_insert] at hname
    split at hname
    · next hn =>
      obtain rfl := Option.some.inj hname
      exact ⟨pluginOrGlobal_ne_empty plugin, hkey.symm, hn.symm⟩
    · cases hheld : r.plugins.get? (lower (pluginOrGlobal plugin)) with
      | none =>
        rw [hheld] at hname
        cases hname
      | some old =>
        rw [hheld] at hname
        exact h pluginKey old nameKey g (by rw [hkey, hheld]) hname
  · exact h pluginKey held nameKey g hplugin hname

end Registry

namespace Kernel

theorem filed_importPlugin {k : Kernel} (h : k.registry.Filed) (plugin : String)
    (functions : List Function) : (k.importPlugin plugin functions).registry.Filed := by
  induction functions generalizing k with
  | nil => exact h
  | cons f functions ih => exact ih (k := k.register plugin f) (h.add plugin f)

theorem filed_assemble {k : Kernel} (h : k.registry.Filed) (step : Assembly) :
    (k.assemble step).registry.Filed := by
  cases step with
  | register plugin f => exact h.add plugin f
  | importPlugin plugin functions => exact filed_importPlugin h plugin functions
  | registerPrompt plugin name description template settings =>
    rw [assemble, registerPrompt, requireCompletion]
    cases k.completion with
    | none => exact h
    | some completion => exact h.add plugin _
  | attachCompletion completion => exact h
  | attachMemory memory => exact h

/-- **Every kernel files its functions under the names in their views.** -/
theorem filed_assembled (steps : List Assembly) : (assembled steps).registry.Filed := by
  suffices ∀ k : Kernel, k.registry.Filed → (steps.foldl assemble k).registry.Filed from
    this {} Registry.filed_empty
  induction steps with
  | nil => exact fun _ h => h
  | cons step steps ih => exact fun k h => ih (k.assemble step) (filed_assemble h step)

end Kernel

namespace Registry

variable {r : Registry} {plugin name : String} {f : Function}

/-! ### Look-ups and listings -/

theorem get_eq_ok_iff : r.get plugin name = .ok f ↔ r.get? plugin name = some f := by
  rw [get]
  cases r.get? plugin name <;> simp

theorem find_eq_ok_iff :
    r.find name = .ok f ↔ r.get? (splitQualified name).1 (splitQualified name).2 = some f :=
  get_eq_ok_iff

/-- A look-up is a look-up of a plugin and then of a function in it. -/
theorem get?_eq_some_iff :
    r.get? plugin name = some f ↔ ∃ held,
      r.plugins.get? (lower (pluginOrGlobal plugin)) = some held ∧
        held.functions.get? (lower name) = some f :=
  Option.bind_eq_some_iff

/-- A look-up does not mind the case of the two names. -/
theorem get?_congr {plugin' name' : String} (hne : plugin ≠ "") (hne' : plugin' ≠ "")
    (hplugin : lower plugin = lower plugin') (hname : lower name = lower name') :
    r.get? plugin name = r.get? plugin' name' := by
  rw [get?, get?, pluginOrGlobal_of_ne_empty hne, pluginOrGlobal_of_ne_empty hne', hplugin, hname]

/-- The listing shows the functions that are held, each with its view. -/
theorem mem_views_iff {v : FunctionView} :
    v ∈ r.views ↔ ∃ pluginKey held nameKey f, r.plugins.get? pluginKey = some held ∧
      held.functions.get? nameKey = some f ∧ f.view = v := by
  simp only [views, Plugin.views, Dictionary.values, List.mem_flatMap, List.mem_map]
  constructor
  · rintro ⟨held, ⟨⟨pluginKey, _⟩, hplugin, rfl⟩, f, ⟨⟨nameKey, _⟩, hname, rfl⟩, rfl⟩
    exact ⟨pluginKey, _, nameKey, _, Dictionary.mem_entries_iff.mp hplugin,
      Dictionary.mem_entries_iff.mp hname, rfl⟩
  · rintro ⟨pluginKey, held, nameKey, f, hplugin, hname, rfl⟩
    exact ⟨held, ⟨(pluginKey, held), Dictionary.mem_entries_iff.mpr hplugin, rfl⟩, f,
      ⟨(nameKey, f), Dictionary.mem_entries_iff.mpr hname, rfl⟩, rfl⟩

/-- What can be looked up is listed. -/
theorem view_mem_views (h : r.get? plugin name = some f) : f.view ∈ r.views := by
  obtain ⟨held, hplugin, hname⟩ := get?_eq_some_iff.mp h
  exact mem_views_iff.mpr ⟨_, held, _, f, hplugin, hname, rfl⟩

namespace Filed

/-- A function that is held somewhere is found under the names in its view. -/
theorem get?_of_held (h : r.Filed) {pluginKey nameKey : String} {held : Orchestration.Plugin}
    (hplugin : r.plugins.get? pluginKey = some held) (hname : held.functions.get? nameKey = some f) :
    r.get? f.view.plugin f.view.name = some f := by
  obtain ⟨hne, rfl, rfl⟩ := h _ _ _ _ hplugin hname
  refine get?_eq_some_iff.mpr ⟨held, ?_, hname⟩
  rwa [pluginOrGlobal_of_ne_empty hne]

/-- **The names in a view lead back to its function**, however the function was looked up. -/
theorem get_view (h : r.Filed) (hget : r.get? plugin name = some f) :
    r.get? f.view.plugin f.view.name = some f := by
  obtain ⟨held, hplugin, hname⟩ := get?_eq_some_iff.mp hget
  exact h.get?_of_held hplugin hname

/-- What is found was filed under the names that it was looked up by, up to their small forms. -/
theorem names_of_get? (h : r.Filed) (hget : r.get? plugin name = some f) :
    lower f.view.plugin = lower (pluginOrGlobal plugin) ∧ lower f.view.name = lower name := by
  obtain ⟨held, hplugin, hname⟩ := get?_eq_some_iff.mp hget
  exact (h _ _ _ _ hplugin hname).2

/-- The plugin of a function that is found has a name. -/
theorem plugin_ne_empty (h : r.Filed) (hget : r.get? plugin name = some f) : f.view.plugin ≠ "" := by
  obtain ⟨held, hplugin, hname⟩ := get?_eq_some_iff.mp hget
  exact (h _ _ _ _ hplugin hname).1

/-- A listed view leads to the function that it is the view of. -/
theorem get_of_mem_views (h : r.Filed) {v : FunctionView} (hv : v ∈ r.views) :
    ∃ f, r.get? v.plugin v.name = some f ∧ f.view = v := by
  obtain ⟨pluginKey, held, nameKey, f, hplugin, hname, rfl⟩ := mem_views_iff.mp hv
  exact ⟨f, h.get?_of_held hplugin hname, rfl⟩

end Filed

end Registry

end Orchestration
