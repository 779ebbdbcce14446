import Orchestration.Proofs.Registrations
import Orchestration.Proofs.Scanning
import Orchestration.Proofs.SmallLetters

/-!
# Names that lead back

A function is shown under its name with the plugin in front, and such a name is cut at its last dot. Plugins may have
dots in their names and may be spelled in any way, but a dot in the name of a function is taken for the one behind the
plugin, and what is looked up then is never that function.

* `splitQualified_qualifiedName` — the cut undoes the joining of names without a dot in the second.
* `dot_not_mem_splitQualified` — the name that is looked up has no dot.
* `Registry.Filed.find_qualified_iff` — so a shown name leads back just if the function has no dot in its name.
* `Kernel.qualified_leadsBack` — and such names are told apart.
-/

namespace Orchestration

open Text

/-! ### Cutting names -/

theorem splitQualified_inPlugin {plugin function : String} (hne : plugin ≠ "")
    (hdot : '.' ∉ function.toList) : splitQualified (plugin ++ "." ++ function) = (plugin, function) := by
  have htext : (plugin ++ "." ++ function).toList = plugin.toList ++ '.' :: function.toList := by
    simp [String.toList_append]
  have hchars : plugin.toList.isEmpty = false := by simpa using hne
  rw [splitQualified, htext, splitLast?_append hdot]
  simp only [hchars, Bool.false_eq_true, if_false, String.ofList_toList]

theorem splitQualified_global {function : String} (hdot : '.' ∉ function.toList) :
    splitQualified function = (globalPlugin, function) := by
  rw [splitQualified, splitLast?_eq_none hdot]

/-- **What a name was put together of** is what it is cut into, dots in the plugin and all. -/
theorem splitQualified_qualifiedName {plugin function : String} (hne : plugin ≠ "")
    (hdot : '.' ∉ function.toList) : splitQualified (qualifiedName plugin function) = (plugin, function) := by
  rw [qualifiedName]
  split
  · next hglobal => rw [hglobal, splitQualified_global hdot]
  · exact splitQualified_inPlugin hne hdot

/-- **No dot stands behind the last one**: what a text is cut into is never the name of a function with a dot. -/
theorem dot_not_mem_splitQualified (name : String) : '.' ∉ (splitQualified name).2.toList := by
  rw [splitQualified]
  rcases splitLast?_cases '.' name.toList with ⟨before, after, hcut, -, hafter⟩ | ⟨hnone, hdot⟩
  · rw [hcut]
    simpa using hafter
  · rw [hnone]
    exact hdot

/-! ### Looking names up -/

namespace Registry

variable {r : Registry} {f g : Function}

/-- A function that is found by one text has no dot in its name: its name and that which was looked up have one small
form, and the cut leaves no dot in the second. -/
theorem Filed.dot_not_mem_of_find (h : r.Filed) {name : String} (hfind : r.find name = .ok f) :
    '.' ∉ f.view.name.toList := by
  obtain ⟨-, hname⟩ := h.names_of_get? (find_eq_ok_iff.mp hfind)
  have hlow : '.'.toNat < 65 := by decide
  rw [← mem_lower_iff hlow, hname, mem_lower_iff hlow]
  exact dot_not_mem_splitQualified name

/-- **The name that a function is shown under** leads back to it just if its own name has no dot. -/
theorem Filed.find_qualified_iff (h : r.Filed) {plugin name : String} (hget : r.get? plugin name = some f) :
    r.find f.view.qualified = .ok f ↔ '.' ∉ f.view.name.toList := by
  constructor
  · exact h.dot_not_mem_of_find
  · intro hdot
    rw [find_eq_ok_iff, FunctionView.qualified, splitQualified_qualifiedName (h.plugin_ne_empty hget) hdot]
    exact h.get_view hget

end Registry

/-! ### Kernels -/

/-- The function is the last that was registered under some two names, and so was not replaced. -/
def IsCurrent (log : List Registration) (f : Function) : Prop := ∃ plugin name, latest? log plugin name = some f

theorem IsCurrent.exists_registration {log : List Registration} {f : Function} (h : IsCurrent log f) :
    ∃ g ∈ log, g.held = f := by
  obtain ⟨plugin, name, hlatest⟩ := h
  obtain ⟨g, hfind, rfl⟩ := Option.map_eq_some_iff.mp hlatest
  exact ⟨g, List.mem_reverse.mp (List.mem_of_find?_eq_some hfind), rfl⟩

namespace Kernel

/-- **Shown names lead back**, in every kernel: the name that a function is shown under finds that function if and only
if there is no dot in the name of the function itself, and as long as there is none in any of them, different functions
are shown under different names. -/
theorem qualified_leadsBack (steps : List Assembly) :
    let r := (assembled steps).registry
    let log := registrations {} steps
    (∀ f, IsCurrent log f → (r.find f.view.qualified = .ok f ↔ '.' ∉ f.view.name.toList)) ∧
      ((∀ f, IsCurrent log f → '.' ∉ f.view.name.toList) →
        ∀ f g, IsCurrent log f → IsCurrent log g → f ≠ g → f.view.qualified ≠ g.view.qualified) := by
  intro r log
  have hfind (f : Function) (hf : IsCurrent log f) : r.find f.view.qualified = .ok f ↔ '.' ∉ f.view.name.toList := by
    obtain ⟨plugin, name, hlatest⟩ := hf
    have hget : r.get? plugin name = some f := by rw [← hlatest, ← Registry.get?_ofList, ← registry_assembled]
    exact (filed_assembled steps).find_qualified_iff hget
  refine ⟨hfind, fun hdots f g hf hg hne hsame => hne ?_⟩
  have hback := (hfind f hf).mpr (hdots f hf)
  rw [hsame, (hfind g hg).mpr (hdots g hg)] at hback
  exact (Except.ok.inj hback).symm

/-- A plugin with a dot in its name does no harm, under a new spelling neither; a function with one is out of reach. -/
theorem qualified_leadsBack_dotted :
    let upper := (Function.echo "upper").inPlugin "text.TOOLS"
    let joke := (Function.echo "Joke").inPlugin globalPlugin
    let trim := (Function.echo "v1.Trim").inPlugin "text"
    let plain : List Assembly := [.register "Text.Tools" (.echo "Upper"), .register "text.TOOLS" (.echo "upper"),
      .register "" (.echo "Joke")]
    let dotted := plain ++ [.register "text" (.echo "v1.Trim")]
    (IsCurrent (registrations {} dotted) upper ∧ (assembled dotted).registry.find "text.TOOLS.upper" = .ok upper) ∧
      (IsCurrent (registrations {} dotted) trim ∧ (assembled dotted).registry.find "text.v1.Trim" ≠ .ok trim) ∧
        (∀ f, IsCurrent (registrations {} plain) f → '.' ∉ f.view.name.toList) ∧
          IsCurrent (registrations {} plain) upper ∧ IsCurrent (registrations {} plain) joke ∧
            upper.view.qualified ≠ joke.view.qualified := by
  intro upper joke trim plain dotted
  have hupper : IsCurrent (registrations {} dotted) upper := ⟨"TEXT.tools", "Upper", rfl⟩
  have htrim : IsCurrent (registrations {} dotted) trim := ⟨"Text", "V1.trim", rfl⟩
  have hfound := ((qualified_leadsBack dotted).1 upper hupper).mpr (by decide)
  have hlost := mt ((qualified_leadsBack dotted).1 trim htrim).mp (by decide)
  have hdots : ∀ f, IsCurrent (registrations {} plain) f → '.' ∉ f.view.name.toList := by
    intro f hf
    obtain ⟨g, hg, rfl⟩ := hf.exists_registration
    have hnames : ∀ name ∈ ["Upper", "upper", "Joke"], '.' ∉ name.toList := by decide
    exact hnames _ (List.mem_map_of_mem (f := fun g : Registration => g.function.view.name) hg)
  have hupper' : IsCurrent (registrations {} plain) upper := ⟨"TEXT.tools", "Upper", rfl⟩
  have hjoke : IsCurrent (registrations {} plain) joke := ⟨"", "JOKE", rfl⟩
  have hne : upper ≠ joke := fun heq => absurd (congrArg (·.view.name) heq) (by decide)
  exact ⟨⟨hupper, hfound⟩, ⟨htrim, hlost⟩, hdots, hupper', hjoke,
    (qualified_leadsBack plain).2 hdots upper joke hupper' hjoke hne⟩

end Kernel

end Orchestration
