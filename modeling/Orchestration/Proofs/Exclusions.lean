import Orchestration.Proofs.PlanReading
import Orchestration.Proofs.Selection

/-!
# Exclusions and plans made at once

A configuration keeps functions back from planners. The three planners that make a plan at once leave these
out of the prompt, but their readers find names among all functions, so what a model was not offered it may
still name.

* `Planner.createPlan_cases` — how a plan comes about: the last thing asked is a completion, and its answer is
  read.
* `Planner.createPlan_keepsTo_iff` — a plan keeps to the exclusions exactly if the answer names no function that
  they keep back.
* `Planner.createPlan_disobeys` — under each of the three planners an answer can name one.
-/

namespace Orchestration.Planner

open Text

variable {k : Kernel} {c : Config.Planner} {planner : Planner} {goal answer : String} {plan : Plan}
  {log : List (Exchange Errands)}

/-- Whether the configuration keeps back what a step calls, by its plugin, its name, or both. -/
def keepsBack (c : Config.Planner) (s : PlanStep) : Bool :=
  c.excludedPlugins.any (sameAsciiLetters · s.plugin) ||
    c.excludedFunctions.any fun f => sameAsciiLetters f s.function || sameAsciiLetters f s.qualified

/-- The step has its two names from a view. -/
def Names (v : FunctionView) (s : PlanStep) : Prop := s.plugin = v.plugin ∧ s.function = v.name

/-- Exclusion looks at the two names only. -/
theorem Names.isExcluded_eq {v : FunctionView} {s : PlanStep} (h : Names v s) :
    isExcluded c v = keepsBack c s := by
  rw [isExcluded, keepsBack, FunctionView.qualified, PlanStep.qualified, h.1, h.2]

/-- A function that an answer names is listed by the registry. -/
theorem view_mem_views_of_named {f : Function} (hf : f ∈ planner.functionsIn k answer) :
    f.view ∈ k.registry.views := by
  obtain ⟨name, -, hfound⟩ := List.mem_filterMap.mp hf
  exact Registry.view_mem_views (Registry.find_eq_ok_iff.mp (found?_eq_some_iff.mp hfound))

/-- **How a plan comes about**: the functions on offer are chosen, a completion is asked for last of all, and
its answer is read. -/
theorem createPlan_cases (h : Ends (createPlan planner k c goal) log (.ok plan)) :
    ∃ completion views before answer, Ends (available k c goal) before (.ok views) ∧
      log = before ++
        [⟨.complete completion (planner.prompt goal views) (planner.settings c), .ok answer⟩] ∧
      planner.read k c goal answer = .ok plan := by
  rw [createPlan] at h
  split at h
  · obtain ⟨-, hout⟩ := ends_throw.mp h
    cases hout
  · rcases ends_bind.mp h with ⟨_, -, he⟩ | ⟨first, completion, later, hservice, hrest, rfl⟩
    · cases he
    · obtain ⟨rfl, -⟩ := Task.ends_ofExcept.mp hservice
      rcases ends_bind.mp hrest with ⟨_, -, he⟩ | ⟨before, views, later, hviews, hasks, rfl⟩
      · cases he
      · rcases Task.ends_mapError_bind.mp hasks with ⟨_, -, he⟩ | ⟨asked, answer, rest, hask, hreads, rfl⟩
        · cases he
        · obtain ⟨rfl, hread⟩ := Task.ends_ofExcept.mp hreads
          refine ⟨completion, views, before, answer, hviews, ?_, hread.symm⟩
          rw [Task.ends_complete.mp hask, List.nil_append, List.append_nil]

/-- **Where a plan comes from when nothing is in the way**: with a goal, a model and no threshold, what is read
from the answer to one completion is the plan. -/
theorem createPlan_of_read {completion : Completion} (hgoal : isBlankText goal = false)
    (hservice : k.completion = some completion) (hthreshold : c.relevancyThreshold = none)
    (hread : planner.read k c goal answer = .ok plan) :
    Ends (createPlan planner k c goal)
      [⟨.complete completion (planner.prompt goal (offered k c)) (planner.settings c), .ok answer⟩]
      (.ok plan) := by
  have hrequire : k.requireCompletion = .ok completion := by
    rw [Kernel.requireCompletion, hservice]
  rw [createPlan, hgoal, hrequire, available_of_no_threshold hthreshold]
  refine ends_bind.mpr (.inr ⟨[], completion, _, Task.ends_ofExcept.mpr ⟨rfl, rfl⟩, ?_, rfl⟩)
  refine ends_bind.mpr (.inr ⟨[], offered k c, _, ends_pure.mpr ⟨rfl, rfl⟩, ?_, rfl⟩)
  refine Task.ends_mapError_bind.mpr (.inr ⟨[_], answer, [], ?_, ?_, rfl⟩)
  · exact Task.ends_complete.mpr rfl
  · exact Task.ends_ofExcept.mpr ⟨rfl, hread.symm⟩

/-! ### What is kept to -/

/-- No step of the plan is kept back. -/
def KeepsTo (c : Config.Planner) (plan : Plan) : Prop := ∀ s ∈ plan.steps, keepsBack c s = false

/-- Every step of the plan is on offer. -/
def IsOffered (k : Kernel) (c : Config.Planner) (plan : Plan) : Prop :=
  ∀ s ∈ plan.steps, ∃ v ∈ offered k c, Names v s

/-- No function that the answer names is kept back. -/
def AnswerKeepsTo (planner : Planner) (k : Kernel) (c : Config.Planner) (answer : String) : Prop :=
  ∀ f ∈ planner.functionsIn k answer, isExcluded c f.view = false

/-- The steps that were read from an answer keep to the exclusions exactly if the functions that it names
do. -/
theorem read_keepsTo_iff (h : planner.read k c goal answer = .ok plan) :
    KeepsTo c plan ↔ AnswerKeepsTo planner k c answer := by
  have hcalls := read_calls h
  constructor
  · intro hsteps f hf
    obtain ⟨s, hs, hcall⟩ := exists_right_of_forall₂ hcalls hf
    rw [Names.isExcluded_eq hcall]
    exact hsteps s hs
  · intro hnamed s hs
    obtain ⟨f, hf, hcall⟩ := exists_left_of_forall₂ hcalls hs
    rw [← Names.isExcluded_eq hcall]
    exact hnamed f hf

/-- The steps that were read from an answer are on offer exactly if none of them is kept back. -/
theorem read_isOffered_iff (h : planner.read k c goal answer = .ok plan) :
    IsOffered k c plan ↔ KeepsTo c plan := by
  refine forall₂_congr fun s hs => ?_
  constructor
  · rintro ⟨v, hv, hnames⟩
    rw [← hnames.isExcluded_eq]
    exact (mem_offered_iff.mp hv).2
  · intro hkept
    obtain ⟨f, hf, hcall⟩ := exists_left_of_forall₂ (read_calls h) hs
    refine ⟨f.view, mem_offered_iff.mpr ⟨view_mem_views_of_named hf, ?_⟩, hcall⟩
    rw [Names.isExcluded_eq hcall, hkept]

/-- **A plan keeps to the exclusions exactly if the model does**: the last thing asked for a plan is a
completion, and no step of the plan is kept back, and all of them are on offer, if and only if no function
that the answer names is kept back. -/
theorem createPlan_keepsTo_iff (planner : Planner) (k : Kernel) (c : Config.Planner) (goal : String)
    (log : List (Exchange Errands)) (plan : Plan) (h : Ends (createPlan planner k c goal) log (.ok plan)) :
    ∃ completion prompt settings answer,
      log.getLast? = some ⟨.complete completion prompt settings, .ok answer⟩ ∧
      (KeepsTo c plan ↔ AnswerKeepsTo planner k c answer) ∧
      (IsOffered k c plan ↔ AnswerKeepsTo planner k c answer) := by
  obtain ⟨completion, views, before, answer, -, rfl, hread⟩ := createPlan_cases h
  have hkeeps := read_keepsTo_iff hread
  exact ⟨completion, _, _, answer, List.getLast?_concat .., hkeeps, (read_isOffered_iff hread).trans hkeeps⟩

/-! ### What is not kept to -/

/-- A kernel with a model and a single function, which deletes files. -/
def deleter : Kernel :=
  .assembled [.attachCompletion ⟨fun _ _ => pure ""⟩, .register "file" (.echo "delete")]

/-- The configuration that keeps the functions for files back. -/
def withoutFiles : Config.Planner := { excludedPlugins := ["file"] }

/-- An answer that names the function all the same. -/
def naming : Planner → String
  | .sequential => "<plan><function.file.delete/></plan>"
  | .action => "\x7b\"plan\":\x7b\"function\":\"file.delete\"\x7d\x7d"
  | .basic => "\x7b\"subtasks\":[\x7b\"function\":\"file.delete\"\x7d]\x7d"

/-- The plan to call the function. -/
def deletion : Plan := { goal := "tidy up", steps := [⟨"file", "delete", ∅, [], none⟩] }

theorem read_naming (planner : Planner) :
    planner.read deleter withoutFiles "tidy up" (naming planner) = .ok deletion := by
  cases planner <;> decide +kernel

theorem ends_createPlan_naming (planner : Planner) :
    Ends (createPlan planner deleter withoutFiles "tidy up")
      [⟨.complete ⟨fun _ _ => pure ""⟩ (planner.prompt "tidy up" (offered deleter withoutFiles))
        (planner.settings withoutFiles), .ok (naming planner)⟩]
      (.ok deletion) :=
  createPlan_of_read (by decide +kernel) rfl rfl (read_naming planner)

/-- **No planner keeps to the exclusions of itself**: under each of the three a model can name a function that
is kept back, and the plan calls it. -/
theorem createPlan_disobeys :
    ¬∃ planner : Planner, ∀ k c goal log plan, Ends (createPlan planner k c goal) log (.ok plan) →
      KeepsTo c plan := by
  rintro ⟨planner, law⟩
  have hkept := law _ _ _ _ _ (ends_createPlan_naming planner) _ List.mem_cons_self
  exact absurd hkept (by decide +kernel)

/-- The equivalence where both of its sides fail. -/
theorem createPlan_keepsTo_iff_naming :
    let log : List (Exchange Errands) :=
      [⟨.complete ⟨fun _ _ => pure ""⟩ (Planner.basic.prompt "tidy up" (offered deleter withoutFiles))
        (Planner.basic.settings withoutFiles), .ok (naming .basic)⟩]
    Ends (createPlan .basic deleter withoutFiles "tidy up") log (.ok deletion) ∧
      ∃ completion prompt settings answer,
        log.getLast? = some ⟨.complete completion prompt settings, .ok answer⟩ ∧
        (KeepsTo withoutFiles deletion ↔ AnswerKeepsTo .basic deleter withoutFiles answer) ∧
        (IsOffered deleter withoutFiles deletion ↔ AnswerKeepsTo .basic deleter withoutFiles answer) := by
  intro log
  have hends : Ends (createPlan .basic deleter withoutFiles "tidy up") log (.ok deletion) :=
    ends_createPlan_naming .basic
  exact ⟨hends, createPlan_keepsTo_iff .basic deleter withoutFiles "tidy up" log deletion hends⟩

end Orchestration.Planner
