import Orchestration.Proofs.QualifiedNames
import Orchestration.Proofs.Selection

/-!
# Exclusions and how they are spelled

What a configuration keeps back is settled by a comparison of its entries with the names that functions are shown
under, in which only the case of ASCII letters does not matter. The registry finds functions under more names than
these: it does not mind the case of any letter, and the global plugin may be named, or its place left empty. So an entry
that the registry finds a function by keeps it back in some spellings, and in others it does not.

* `Planner.Means` — an entry leads the registry to a function.
* `Planner.isExcluded_iff_spellsOut` — the spellings that keep a function back.
* `Planner.available_heeds` — a function that is meant is kept back just if it is spelled so, and it is where all
  entries are in ASCII and none of them names the global plugin.
* `Planner.meaning_unheeded` — entries that mean a function and do not keep it back.
-/

namespace Orchestration

open Text

/-! ### Comparing names with plugins -/

namespace Text

variable {a b plugin name plugin' name' : List Char}

theorem dot_mem_map_toLower_iff : '.' ∈ a.map Char.toLower ↔ '.' ∈ a := by
  simp only [List.mem_map, toLower_eq_iff_of_lt (by decide : '.'.toNat < 65), exists_eq_right]

/-- Where two texts are cut at their last dots, they are alike just if their parts are. -/
theorem map_toLower_cut_iff (h : '.' ∉ name) (h' : '.' ∉ name') :
    (plugin ++ '.' :: name).map Char.toLower = (plugin' ++ '.' :: name').map Char.toLower ↔
      plugin.map Char.toLower = plugin'.map Char.toLower ∧ name.map Char.toLower = name'.map Char.toLower := by
  have hdot : '.'.toLower = '.' := by decide
  rw [List.map_append, List.map_append, List.map_cons, List.map_cons, hdot]
  constructor
  · intro heq
    have hcut := splitLast?_append (mt dot_mem_map_toLower_iff.mp h) (plugin.map Char.toLower)
    rw [heq, splitLast?_append (mt dot_mem_map_toLower_iff.mp h')] at hcut
    obtain ⟨hplugin, hname⟩ := Prod.mk.inj (Option.some.inj hcut)
    exact ⟨hplugin.symm, hname.symm⟩
  · rintro ⟨hplugin, hname⟩
    rw [hplugin, hname]

end Text

namespace Planner

variable {r : Registry} {k : Kernel} {c : Config.Planner} {f : Function} {v : FunctionView} {entry : String}

/-- The entry is the name of a function or the name that it is shown under, but for the case of ASCII letters. -/
def Shows (entry : String) (v : FunctionView) : Prop :=
  sameAsciiLetters entry v.name ∨ sameAsciiLetters entry v.qualified

/-- **An entry that spells a function plainly**, but for the case of ASCII letters: it is the name if it has no dot, and
otherwise the plugin, which is not the global one, and the name. -/
def SpelledPlainly (entry : String) (v : FunctionView) : Prop :=
  match splitLast? '.' entry.toList with
  | none => sameAsciiLetters entry v.name
  | some (plugin, name) =>
    v.plugin ≠ globalPlugin ∧ sameAsciiLetters (.ofList plugin) v.plugin ∧ sameAsciiLetters (.ofList name) v.name

theorem isExcluded_iff : isExcluded c v = true ↔
    (∃ entry ∈ c.excludedPlugins, sameAsciiLetters entry v.plugin) ∨ ∃ entry ∈ c.excludedFunctions, Shows entry v := by
  simp [isExcluded, Shows]

/-- Texts that are alike both have a dot, or neither does. -/
theorem dot_mem_iff_of_sameAsciiLetters {a b : String} (h : sameAsciiLetters a b) :
    '.' ∈ a.toList ↔ '.' ∈ b.toList := by
  have hsame : a.toList.map Char.toLower = b.toList.map Char.toLower := eq_of_beq h
  rw [← dot_mem_map_toLower_iff, hsame, dot_mem_map_toLower_iff]

/-- **A function without a dot in its name is shown** by the entries that spell it plainly. -/
theorem shows_iff_spelledPlainly (hdot : '.' ∉ v.name.toList) : Shows entry v ↔ SpelledPlainly entry v := by
  have htext : (v.plugin ++ "." ++ v.name).toList = v.plugin.toList ++ '.' :: v.name.toList := by
    simp [String.toList_append]
  rw [Shows, SpelledPlainly, FunctionView.qualified, qualifiedName]
  rcases splitLast?_cases '.' entry.toList with ⟨plugin, name, hcut, hentry, hname⟩ | ⟨hnone, hentry⟩
  · -- an entry with a dot is never a bare name
    have hbare : ¬sameAsciiLetters entry v.name := fun h =>
      hdot ((dot_mem_iff_of_sameAsciiLetters h).mp (by simp [hentry]))
    have hparts : sameAsciiLetters entry (v.plugin ++ "." ++ v.name) ↔
        sameAsciiLetters (.ofList plugin) v.plugin ∧ sameAsciiLetters (.ofList name) v.name := by
      simp only [sameAsciiLetters, htext, hentry, beq_iff_eq, String.toList_ofList]
      exact map_toLower_cut_iff hname hdot
    rw [hcut, or_iff_right hbare]
    split
    · next hglobal => exact iff_of_false hbare fun h => h.1 hglobal
    · next hglobal => exact hparts.trans (and_iff_right hglobal).symm
  · rw [hnone]
    split
    · exact or_self_iff
    · refine or_iff_left fun h => hentry ((dot_mem_iff_of_sameAsciiLetters h).mpr ?_)
      rw [htext]
      exact List.mem_append_right _ List.mem_cons_self

/-! ### What entries mean -/

/-- **An entry means a function**: the registry finds the function by it, or, in the plugin that the entry names, by the
name of the function. -/
def Means (r : Registry) (c : Config.Planner) (f : Function) : Prop :=
  (∃ entry ∈ c.excludedFunctions, r.find entry = .ok f) ∨
    ∃ entry ∈ c.excludedPlugins, r.get entry f.view.name = .ok f

/-- **An entry spells a function out**: as the name of its plugin; plainly, if the function is found by the entry; or as
what the function happens to be shown under, if it is not. -/
def SpellsOut (r : Registry) (c : Config.Planner) (f : Function) : Prop :=
  (∃ entry ∈ c.excludedPlugins, sameAsciiLetters entry f.view.plugin) ∨
    ∃ entry ∈ c.excludedFunctions,
      r.find entry = .ok f ∧ SpelledPlainly entry f.view ∨ r.find entry ≠ .ok f ∧ Shows entry f.view

/-- **What is kept back** is what is spelled out. -/
theorem isExcluded_iff_spellsOut (h : r.Filed) : isExcluded c f.view = true ↔ SpellsOut r c f := by
  have hentry (entry : String) : Shows entry f.view ↔
      r.find entry = .ok f ∧ SpelledPlainly entry f.view ∨ r.find entry ≠ .ok f ∧ Shows entry f.view := by
    by_cases hfind : r.find entry = .ok f
    · simp [hfind, shows_iff_spelledPlainly (h.dot_not_mem_of_find hfind)]
    · simp [hfind]
  rw [isExcluded_iff, SpellsOut]
  exact or_congr_right (exists_congr fun entry => and_congr_right fun _ => hentry entry)

/-! ### Entries in ASCII -/

/-- An entry in ASCII spells a function in ASCII plainly if the registry finds the function by it, and if no dot stands
in the entry or the plugin before the dot is not the global one. -/
theorem spelledPlainly_of_find (h : r.Filed) (hfind : r.find entry = .ok f) (hascii : IsAscii entry)
    (hplugin : IsAscii f.view.plugin) (hname : IsAscii f.view.name)
    (hglobal : '.' ∈ entry.toList → lower (splitQualified entry).1 ≠ lower globalPlugin) :
    SpelledPlainly entry f.view := by
  obtain ⟨hsamePlugin, hsameName⟩ := h.names_of_get? (Registry.find_eq_ok_iff.mp hfind)
  rw [SpelledPlainly]
  rw [splitQualified] at hsamePlugin hsameName hglobal
  rcases splitLast?_cases '.' entry.toList with ⟨plugin, name, hcut, hentry, -⟩ | ⟨hnone, -⟩
  · rw [hcut] at hsamePlugin hsameName hglobal ⊢
    have hother := hglobal (by simp [hentry])
    -- were nothing before the dot, that would be the global plugin
    have hne : plugin.isEmpty = false := by
      cases plugin with
      | nil => exact absurd rfl hother
      | cons c plugin => rfl
    simp only [hne, Bool.false_eq_true, if_false] at hsamePlugin hother
    rw [Registry.pluginOrGlobal_of_ne_empty (by simpa using hne)] at hsamePlugin
    have hparts : IsAscii (.ofList plugin) ∧ IsAscii (.ofList name) := by
      simp only [IsAscii, hentry, List.forall_mem_append, List.forall_mem_cons, String.toList_ofList] at hascii ⊢
      exact ⟨hascii.1, hascii.2.2⟩
    refine ⟨fun hglobal => hother (by rw [← hsamePlugin, hglobal]), ?_, ?_⟩
    · exact (lower_eq_iff_of_isAscii hparts.1 hplugin).mp hsamePlugin.symm
    · exact (lower_eq_iff_of_isAscii hparts.2 hname).mp hsameName.symm
  · rw [hnone] at hsameName ⊢
    exact (lower_eq_iff_of_isAscii hascii hname).mp hsameName.symm

/-- **All entries are in ASCII, and none names the global plugin**, neither before a dot nor by nothing. -/
structure Direct (c : Config.Planner) : Prop where
  /-- functions are named in ASCII, and without the global plugin in front -/
  functions : ∀ entry ∈ c.excludedFunctions, IsAscii entry ∧
    ('.' ∈ entry.toList → lower (splitQualified entry).1 ≠ lower globalPlugin)
  /-- plugins are named in ASCII, and have a name -/
  plugins : ∀ entry ∈ c.excludedPlugins, IsAscii entry ∧ entry ≠ ""

/-- **Functions in ASCII that such entries mean** are spelled out by them. -/
theorem Direct.spellsOut (hdirect : Direct c) (h : r.Filed) (hplugin : IsAscii f.view.plugin)
    (hname : IsAscii f.view.name) (hmeans : Means r c f) : SpellsOut r c f := by
  rcases hmeans with ⟨entry, hmem, hfind⟩ | ⟨entry, hmem, hget⟩
  · obtain ⟨hascii, hglobal⟩ := hdirect.functions entry hmem
    exact .inr ⟨entry, hmem, .inl ⟨hfind, spelledPlainly_of_find h hfind hascii hplugin hname hglobal⟩⟩
  · obtain ⟨hascii, hne⟩ := hdirect.plugins entry hmem
    obtain ⟨hsame, -⟩ := h.names_of_get? (Registry.get_eq_ok_iff.mp hget)
    rw [Registry.pluginOrGlobal_of_ne_empty hne] at hsame
    exact .inl ⟨entry, hmem, (lower_eq_iff_of_isAscii hascii hplugin).mp hsame.symm⟩

/-! ### Runs -/

/-- A function that is kept back is not among those that are chosen. -/
theorem not_mem_of_isExcluded {goal : String} {log : List (Exchange Errands)} {views : List FunctionView}
    (h : Ends (available k c goal) log (.ok views)) (hexcluded : isExcluded c v = true) : v ∉ views := by
  intro hmem
  have hchoice : ∀ v ∈ views, v ∈ offered k c := (available_stays k c goal log _ h).2
  have hkept := (mem_offered_iff.mp (hchoice v hmem)).2
  rw [hexcluded] at hkept
  cases hkept

/-- **What an entry means is not on offer if it is spelled out**, in every kernel and for every goal; and only then,
where all functions are on offer that are not kept back. Where the entries and the names of the function are in ASCII,
and no entry names the global plugin, whatever is meant is not on offer. -/
theorem available_heeds (steps : List Assembly) (c : Config.Planner) (goal : String) :
    let k := Kernel.assembled steps
    ∀ log views f, Ends (available k c goal) log (.ok views) → Means k.registry c f →
      (SpellsOut k.registry c f → f.view ∉ views) ∧
        (c.relevancyThreshold = none ∨ k.memory = none → f.view ∉ views → SpellsOut k.registry c f) ∧
          (Direct c → IsAscii f.view.plugin → IsAscii f.view.name → f.view ∉ views) := by
  intro k log views f hends hmeans
  have hfiled : k.registry.Filed := Kernel.filed_assembled steps
  have hspelled (hspells : SpellsOut k.registry c f) : f.view ∉ views :=
    not_mem_of_isExcluded hends ((isExcluded_iff_spellsOut hfiled).mpr hspells)
  refine ⟨hspelled, fun hall hmissing => ?_, fun hdirect hplugin hname => ?_⟩
  · obtain ⟨-, hviews⟩ := (ends_available_of_all hall).mp hends
    obtain rfl := Except.ok.inj hviews
    have hlisted : f.view ∈ k.registry.views := by
      rcases hmeans with ⟨entry, -, hfind⟩ | ⟨entry, -, hget⟩
      · exact Registry.view_mem_views (Registry.find_eq_ok_iff.mp hfind)
      · exact Registry.view_mem_views (Registry.get_eq_ok_iff.mp hget)
    have hexcluded : isExcluded c f.view = true :=
      eq_true_of_ne_false fun hkept => hmissing (mem_offered_iff.mpr ⟨hlisted, hkept⟩)
    exact (isExcluded_iff_spellsOut hfiled).mp hexcluded
  · exact hspelled (hdirect.spellsOut hfiled hplugin hname hmeans)

/-! ### Entries that are not heeded -/

/-- **Whatever an entry means is kept back.** -/
def HeedsMeaning (k : Kernel) (c : Config.Planner) : Prop :=
  ∀ goal log views f, Ends (available k c goal) log (.ok views) → Means k.registry c f → f.view ∉ views

/-- A function of a plugin and two global ones. -/
def pastries : List Assembly :=
  [.register "text" (.echo "Upper"), .register "" (.echo "Joke"), .register "" (.echo "éclair")]

/-- The view of the function that was found. -/
def viewOf? (found : Except KernelError Function) : Option FunctionView := found.toOption.map (·.view)

theorem exists_of_viewOf? {found : Except KernelError Function} (h : viewOf? found = some v) :
    ∃ f, found = .ok f ∧ f.view = v := by
  cases found with
  | error e => cases h
  | ok f => exact ⟨f, rfl, Option.some.inj h⟩

/-- An entry that means a function on offer is not heeded. -/
theorem not_heedsMeaning (hthreshold : c.relevancyThreshold = none) (hmeans :
      (∃ entry ∈ c.excludedFunctions, viewOf? (k.registry.find entry) = some v) ∨
        ∃ entry ∈ c.excludedPlugins, viewOf? (k.registry.get entry v.name) = some v)
    (hoffered : v ∈ offered k c) : ¬HeedsMeaning k c := by
  intro h
  have hends : Ends (available k c "") [] (.ok (offered k c)) :=
    (ends_available_of_all (.inl hthreshold)).mpr ⟨rfl, rfl⟩
  rcases hmeans with ⟨entry, hmem, hfound⟩ | ⟨entry, hmem, hfound⟩
  · obtain ⟨f, hfind, rfl⟩ := exists_of_viewOf? hfound
    exact h "" [] _ f hends (.inl ⟨entry, hmem, hfind⟩) hoffered
  · obtain ⟨f, hget, rfl⟩ := exists_of_viewOf? hfound
    exact h "" [] _ f hends (.inr ⟨entry, hmem, hget⟩) hoffered

/-- **An entry that means a function may keep nothing back**: where it has the global plugin, or nothing, in front of a
dot; where nothing stands for the global plugin; and where the two names differ in the case of other letters than those
of ASCII. -/
theorem meaning_unheeded :
    let k := Kernel.assembled pastries
    ¬HeedsMeaning k { excludedFunctions := ["_GLOBAL_FUNCTIONS_.joke"] } ∧
      ¬HeedsMeaning k { excludedFunctions := [".joke"] } ∧
      ¬HeedsMeaning k { excludedPlugins := [""] } ∧
      ¬HeedsMeaning k { excludedFunctions := ["ÉCLAIR"] } := by
  intro k
  let joke : FunctionView := ((Function.echo "Joke").inPlugin globalPlugin).view
  let eclair : FunctionView := ((Function.echo "éclair").inPlugin globalPlugin).view
  refine ⟨not_heedsMeaning (v := joke) rfl ?_ ?_, not_heedsMeaning (v := joke) rfl ?_ ?_,
    not_heedsMeaning (v := joke) rfl ?_ ?_, not_heedsMeaning (v := eclair) rfl ?_ ?_⟩
  all_goals decide +kernel

/-- Where entries are in ASCII and name no global plugin, all that they mean is kept back. -/
theorem available_heeds_pastries :
    let k := Kernel.assembled pastries
    let c : Config.Planner := { excludedFunctions := ["TEXT.upper", "jokE"] }
    ∃ upper joke views, k.registry.find "TEXT.upper" = .ok upper ∧ k.registry.find "jokE" = .ok joke ∧ Direct c ∧
      Ends (available k c "bake") [] (.ok views) ∧ views.map (·.qualified) = ["éclair"] ∧
        SpellsOut k.registry c upper ∧ upper.view ∉ views ∧ joke.view ∉ views := by
  intro k c
  obtain ⟨upper, hupper, hviewUpper⟩ : ∃ f, k.registry.find "TEXT.upper" = .ok f ∧
      f.view = ((Function.echo "Upper").inPlugin "text").view := exists_of_viewOf? (by decide +kernel)
  obtain ⟨joke, hjoke, hviewJoke⟩ : ∃ f, k.registry.find "jokE" = .ok f ∧
      f.view = ((Function.echo "Joke").inPlugin globalPlugin).view := exists_of_viewOf? (by decide +kernel)
  have hends : Ends (available k c "bake") [] (.ok (offered k c)) :=
    (ends_available_of_all (.inl rfl)).mpr ⟨rfl, rfl⟩
  have hdirect : Direct c := ⟨by decide +kernel, nofun⟩
  have hmeansUpper : Means k.registry c upper := .inl ⟨_, by decide, hupper⟩
  have hmeansJoke : Means k.registry c joke := .inl ⟨_, by decide, hjoke⟩
  obtain ⟨hkeeps, hspells, -⟩ := available_heeds pastries c "bake" [] (offered k c) upper hends hmeansUpper
  obtain ⟨-, -, hascii⟩ := available_heeds pastries c "bake" [] (offered k c) joke hends hmeansJoke
  have hout : SpellsOut k.registry c upper := by
    refine hspells (.inl rfl) ?_
    rw [hviewUpper]
    decide +kernel
  refine ⟨upper, joke, _, hupper, hjoke, hdirect, hends, by decide +kernel, hout, hkeeps hout, hascii hdirect ?_ ?_⟩
  · rw [hviewJoke]
    decide +kernel
  · rw [hviewJoke]
    decide +kernel

end Planner

end Orchestration
