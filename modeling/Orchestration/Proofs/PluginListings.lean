import Orchestration.Proofs.Registrations
import Orchestration.Proofs.SmallLetters

/-!
# Plugins by their spelling

Whether there is a plugin, what it lists and which functions it gives are asked by a spelling of its name. The three
answers fit together for a spelling in any letters, with one exception: nothing means the global plugin when a function
is put into it or looked up in it, but not when it is asked for or listed.

* `Registry.Stocked` — no plugin is empty.
* `Registry.Filed.get_of_held` — what a look-up can find in a plugin is what is held under its key.
* `Registry.AnswersAlike` — the three answers to a spelling fit together.
* `Kernel.pluginAnswers_alike` — so it is in every kernel, unless nothing is asked for and the global plugin has a
  function.
-/

namespace Orchestration

open Text

namespace Registry

variable {r : Registry} {plugin name : String} {f : Function}

/-! ### No plugin is empty -/

/-- Every plugin that is held has a function. -/
def Stocked (r : Registry) : Prop :=
  ∀ pluginKey held, r.plugins.get? pluginKey = some held → ∃ nameKey f, held.functions.get? nameKey = some f

/-- A plugin comes with the first function that is put into it, and loses none. -/
theorem Stocked.add (h : r.Stocked) (plugin : String) (f : Function) : (r.add plugin f).Stocked := by
  intro pluginKey held hheld
  rw [Registry.add, Dictionary.get?_insert] at hheld
  split at hheld
  · obtain rfl := Option.some.inj hheld
    exact ⟨_, _, Dictionary.get?_insert_self ..⟩
  · exact h pluginKey held hheld

theorem stocked_ofList (log : List Registration) : (ofList log).Stocked := by
  induction log using List.reverseRecOn with
  | nil => exact nofun
  | append_singleton log g ih =>
    rw [ofList_concat]
    exact ih.add g.plugin g.function

/-- No plugin is filed under nothing, for its functions have its name in their views. -/
theorem Filed.get?_plugins_empty (h : r.Filed) (hstocked : r.Stocked) : r.plugins.get? "" = none := by
  rw [Option.eq_none_iff_forall_ne_some]
  intro held hheld
  obtain ⟨nameKey, f, hname⟩ := hstocked "" held hheld
  obtain ⟨hne, hkey, -⟩ := h "" held nameKey f hheld hname
  exact hne (lower_eq_empty_iff.mp hkey)

/-! ### Asking for a plugin -/

/-- **What a plugin gives** is what it holds: each of its functions can be looked up by its name. -/
theorem Filed.get_of_held (h : r.Filed) {held : Orchestration.Plugin}
    (hheld : r.plugins.get? (lower (pluginOrGlobal plugin)) = some held) :
    (∃ name, r.get plugin name = .ok f) ↔ f ∈ held.functions.values := by
  simp only [get_eq_ok_iff, get?_eq_some_iff, hheld, Option.some.injEq, exists_eq_left', Dictionary.mem_values_iff]
  constructor
  · rintro ⟨name, hname⟩
    exact ⟨lower name, hname⟩
  · rintro ⟨nameKey, hname⟩
    -- the key is the small form of the name in the view
    obtain ⟨-, -, hkey⟩ := h _ held nameKey f hheld hname
    exact ⟨f.view.name, hkey ▸ hname⟩

theorem not_get_of_not_held (hheld : r.plugins.get? (lower (pluginOrGlobal plugin)) = none) (name : String)
    (f : Function) : r.get plugin name ≠ .ok f := by
  simp [get_eq_ok_iff, get?, hheld]

/-- The functions of a plugin are listed in the order of the small forms of their names. -/
theorem Filed.pluginViews_ordered (h : r.Filed) {pluginKey : String} {held : Orchestration.Plugin}
    (hheld : r.plugins.get? pluginKey = some held) :
    (Plugin.views held).Pairwise fun a b => lower a.name < lower b.name := by
  rw [Plugin.views, Dictionary.values, List.map_map]
  refine List.pairwise_map.mpr (held.functions.ordered.imp_of_mem fun {a b} ha hb hlt => ?_)
  obtain ⟨-, -, hname⟩ := h pluginKey held a.1 a.2 hheld (Dictionary.mem_entries_iff.mp ha)
  obtain ⟨-, -, hname'⟩ := h pluginKey held b.1 b.2 hheld (Dictionary.mem_entries_iff.mp hb)
  simpa [hname, hname'] using hlt

/-- **The answers to a spelling of a plugin fit together**: the plugin is there, can be listed and gives a function, or
none of these, and what it lists is what it gives. -/
structure AnswersAlike (r : Registry) (plugin : String) : Prop where
  /-- the plugin is there if some name leads to a function in it -/
  present : r.containsPlugin plugin = true ↔ ∃ name f, r.get plugin name = .ok f
  /-- it can be listed if some name leads to a function in it -/
  listed : (∃ views, r.pluginViews plugin = .ok views) ↔ ∃ name f, r.get plugin name = .ok f
  /-- the views that are listed are those of the functions that some name leads to -/
  shown : ∀ views, r.pluginViews plugin = .ok views →
    ∀ v, v ∈ views ↔ ∃ name f, r.get plugin name = .ok f ∧ f.view = v
  /-- they come in the order of the small forms of their names, so that no two have the same -/
  ordered : ∀ views, r.pluginViews plugin = .ok views → views.Pairwise fun a b => lower a.name < lower b.name

/-- **A plugin that is asked for by a name** gives answers that fit together. -/
theorem Filed.answersAlike (h : r.Filed) (hstocked : r.Stocked) (hne : plugin ≠ "") : r.AnswersAlike plugin := by
  have hkey := pluginOrGlobal_of_ne_empty hne
  cases hheld : r.plugins.get? (lower plugin) with
  | none =>
    have hnone (name : String) (f : Function) : r.get plugin name ≠ .ok f :=
      not_get_of_not_held (by rw [hkey, hheld]) name f
    constructor <;> simp [containsPlugin, Dictionary.contains, pluginViews, hheld, hnone]
  | some held =>
    have hgives (f : Function) : (∃ name, r.get plugin name = .ok f) ↔ f ∈ held.functions.values :=
      h.get_of_held (by rw [hkey, hheld])
    have hviews (views : List FunctionView) : r.pluginViews plugin = .ok views ↔ Plugin.views held = views := by
      simp [pluginViews, hheld]
    have hsome : ∃ name f, r.get plugin name = .ok f := by
      obtain ⟨nameKey, f, hname⟩ := hstocked _ held hheld
      obtain ⟨name, hget⟩ := (hgives f).mpr (Dictionary.mem_values_iff.mpr ⟨nameKey, hname⟩)
      exact ⟨name, f, hget⟩
    refine ⟨?_, ?_, fun views hlist v => ?_, fun views hlist => ?_⟩
    · exact iff_of_true (by simp [containsPlugin, Dictionary.contains, hheld]) hsome
    · exact iff_of_true ⟨_, (hviews _).mpr rfl⟩ hsome
    · obtain rfl := (hviews views).mp hlist
      simp only [Plugin.views, List.mem_map, ← hgives]
      constructor
      · rintro ⟨f, ⟨name, hget⟩, rfl⟩
        exact ⟨name, f, hget, rfl⟩
      · rintro ⟨name, f, hget, rfl⟩
        exact ⟨f, ⟨name, hget⟩, rfl⟩
    · obtain rfl := (hviews views).mp hlist
      exact h.pluginViews_ordered hheld

/-- **Nothing is not the name of a plugin** to those who ask for one or list it. -/
theorem Filed.answers_nothing (h : r.Filed) (hstocked : r.Stocked) :
    r.containsPlugin "" = false ∧ r.pluginViews "" = .error (.pluginNotFound "") := by
  have hnone : r.plugins.get? (lower "") = none := h.get?_plugins_empty hstocked
  simp [containsPlugin, Dictionary.contains, pluginViews, hnone]

/-- So the answers to it fit together just if no name leads to a function in the global plugin. -/
theorem Filed.answersAlike_iff (h : r.Filed) (hstocked : r.Stocked) :
    r.AnswersAlike plugin ↔ (plugin = "" → ∀ name f, r.get "" name ≠ .ok f) := by
  constructor
  · rintro halike rfl name f hget
    have hpresent := halike.present.mpr ⟨name, f, hget⟩
    rw [(h.answers_nothing hstocked).1] at hpresent
    cases hpresent
  · intro hnothing
    by_cases hne : plugin = ""
    · have hnone := hnothing hne
      obtain ⟨habsent, hfails⟩ := h.answers_nothing hstocked
      rw [← hne] at hnone habsent hfails
      constructor <;> simp [habsent, hfails, hnone]
    · exact h.answersAlike hstocked hne

end Registry

/-! ### Kernels -/

namespace Kernel

theorem stocked_assembled (steps : List Assembly) : (assembled steps).registry.Stocked := by
  rw [registry_assembled]
  exact Registry.stocked_ofList _

/-- **The answers to a spelling fit together** in every kernel, in whatever letters the plugin is spelled, unless
nothing is asked for: a look-up then takes it for the global plugin, which answers to its own name, but no plugin is
there under nothing and none can be listed. -/
theorem pluginAnswers_alike (steps : List Assembly) (plugin : String) :
    let r := (assembled steps).registry
    (r.AnswersAlike plugin ↔ (plugin = "" → ∀ name f, r.get "" name ≠ .ok f)) ∧
      r.AnswersAlike (pluginOrGlobal plugin) ∧
        (∀ name, r.get plugin name = r.get (pluginOrGlobal plugin) name) ∧
          r.containsPlugin "" = false ∧ r.pluginViews "" = .error (.pluginNotFound "") := by
  intro r
  have hfiled : r.Filed := filed_assembled steps
  have hstocked : r.Stocked := stocked_assembled steps
  have hne := Registry.pluginOrGlobal_ne_empty plugin
  refine ⟨hfiled.answersAlike_iff hstocked, hfiled.answersAlike hstocked hne, fun name => ?_,
    hfiled.answers_nothing hstocked⟩
  rw [Registry.get, Registry.get, Registry.get?, Registry.get?, Registry.pluginOrGlobal_of_ne_empty hne]

/-- The answers fit together for a plugin with two functions, one of them put there twice, and for the global plugin by
its name, but not for nothing. -/
theorem pluginAnswers_alike_spelled :
    let steps : List Assembly := [.register "Text" (.echo "Upper"), .register "" (.echo "Joke"),
      .register "TEXT" (.echo "Lower"), .register "text" (.echo "UPPER")]
    let r := (assembled steps).registry
    r.AnswersAlike "tEXT" ∧ ¬ r.AnswersAlike "" ∧ r.AnswersAlike globalPlugin := by
  intro steps r
  have hspelled := (pluginAnswers_alike steps "tEXT").1.mpr fun h => absurd h (by decide)
  refine ⟨hspelled, fun halike => ?_, (pluginAnswers_alike steps "").2.1⟩
  have hget : r.get "" "joke" = .ok ((Function.echo "Joke").inPlugin globalPlugin) := rfl
  exact (pluginAnswers_alike steps "").1.mp halike rfl "joke" _ hget

/-- A function of the global plugin is found under nothing, where there is no plugin and none to list. -/
theorem pluginAnswers_nothing :
    let r := (assembled [.register "" (.echo "Joke")]).registry
    r.get "" "joke" = .ok ((Function.echo "Joke").inPlugin globalPlugin) ∧ r.containsPlugin "" = false ∧
      r.pluginViews "" = .error (.pluginNotFound "") ∧ ¬ r.AnswersAlike "" := by
  intro r
  have hget : r.get "" "joke" = .ok ((Function.echo "Joke").inPlugin globalPlugin) := rfl
  refine ⟨hget, rfl, rfl, fun halike => ?_⟩
  have hpresent := halike.present.mpr ⟨"joke", _, hget⟩
  cases hpresent

end Kernel

end Orchestration
