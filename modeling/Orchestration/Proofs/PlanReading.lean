import Mathlib.Data.List.Forall2
import Orchestration.Planner.Create
import Orchestration.Proofs.PlanRun
import Orchestration.Proofs.Traversals

/-!
# What answers of a model are read as

Three readers make a plan of an answer: one of markup, one of a choice and one of subtasks. Each takes
names from the answer, finds the function of a name, and makes a step of the view of the function.

* `Planner.namesIn`, `Planner.functionsIn` — the names in an answer, and the functions found by them.
* `Planner.read_calls` — whatever the answer, the steps that are read call these functions, in order.
* `Planner.read_runnable` — so the steps of a plan can be looked up again, and running it never stops at a
  function that is not there.
-/

namespace Orchestration

open Text

namespace Plan

@[simp] theorem ofSteps_steps (goal : String) (steps : List PlanStep) :
    (ofSteps goal steps).steps = steps := by
  suffices ∀ p : Plan, (steps.foldl add p).steps = p.steps ++ steps from this _
  induction steps with
  | nil => exact fun p => (List.append_nil _).symm
  | cons s steps ih =>
    intro p
    rw [List.foldl_cons, ih, add, List.append_assoc, List.singleton_append]

end Plan

namespace Planner

/-- The function of a name, if there is one. -/
def found? (k : Kernel) (name : String) : Option Function := (k.registry.find name).toOption

/-- The names of functions in an answer, in order and without blanks at their ends; none where the answer
cannot be read. -/
def namesIn (planner : Planner) (answer : String) : List String :=
  match planner with
  | .sequential => ((planElements? answer).getD []).filterMap Element.function?
  | .action =>
    match readDocument Choice.decoder answer with
    | .ok choice => if isBlankText choice.function then [] else [trim choice.function]
    | .error _ => []
  | .basic =>
    match readDocument Breakdown.decoder answer with
    | .ok breakdown => breakdown.subtasks.map (trim ·.function)
    | .error _ => []

/-- The functions that an answer names, in order, as far as they are there. -/
def functionsIn (planner : Planner) (k : Kernel) (answer : String) : List Function :=
  (planner.namesIn answer).filterMap (found? k)

/-- The step has its two names from the view of the function. -/
def Calls (f : Function) (s : PlanStep) : Prop := s.plugin = f.view.plugin ∧ s.function = f.view.name

variable {k : Kernel} {goal answer : String} {plan : Plan}

theorem found?_eq_some_iff {name : String} {f : Function} :
    found? k name = some f ↔ k.registry.find name = .ok f := by
  rw [found?]
  cases k.registry.find name <;> simp [Except.toOption]

/-! ### Markup -/

/-- An attribute never changes which function a step calls. -/
theorem Calls.withAttribute {f : Function} {s : PlanStep} (h : Calls f s) (a : String × String) :
    Calls f (withAttribute s a) := by
  rw [Planner.withAttribute]
  split
  · exact h
  · split
    · exact h
    · exact h

theorem stepOf_calls (f : Function) (attributes : List (String × String)) :
    Calls f (stepOf f.view attributes) := by
  rw [stepOf]
  suffices ∀ s, Calls f s → Calls f (attributes.foldl withAttribute s) from this _ ⟨rfl, rfl⟩
  induction attributes with
  | nil => exact fun _ h => h
  | cons a attributes ih => exact fun s h => ih _ (h.withAttribute a)

/-- **Steps are read element by element**: one that calls no function is passed over, one whose function is missing too
if that is allowed, and one whose function is there makes a step. -/
theorem stepsOf_cons_eq_ok_iff {allowMissing : Bool} {e : Element} {elements : List Element} {steps : List PlanStep} :
    stepsOf k allowMissing (e :: elements) = .ok steps ↔
      (e.function? = none ∧ stepsOf k allowMissing elements = .ok steps) ∨
      (∃ name failure, e.function? = some name ∧ k.registry.find name = .error failure ∧ allowMissing = true ∧
        stepsOf k allowMissing elements = .ok steps) ∨
      ∃ name f rest, e.function? = some name ∧ k.registry.find name = .ok f ∧
        stepsOf k allowMissing elements = .ok rest ∧ steps = stepOf f.view e.attributes :: rest := by
  rw [stepsOf]
  cases hname : e.function? with
  | none => simp
  | some name =>
    cases hfind : k.registry.find name with
    | error failure => cases allowMissing <;> simp [hfind]
    | ok f => cases stepsOf k allowMissing elements <;> simp [hfind, Except.map, eq_comm]

/-- The steps of elements call the functions that the elements name, those that are not there left out. -/
theorem stepsOf_calls {allowMissing : Bool} {elements : List Element} {steps : List PlanStep}
    (h : stepsOf k allowMissing elements = .ok steps) :
    List.Forall₂ Calls ((elements.filterMap Element.function?).filterMap (found? k)) steps := by
  induction elements generalizing steps with
  | nil =>
    obtain rfl := Except.ok.inj h
    exact .nil
  | cons e elements ih =>
    rcases stepsOf_cons_eq_ok_iff.mp h with
      ⟨hname, hrest⟩ | ⟨name, failure, hname, hfind, -, hrest⟩ | ⟨name, f, rest, hname, hfind, hrest, rfl⟩
    · rw [List.filterMap_cons_none hname]
      exact ih hrest
    · have hnone : found? k name = none := by rw [found?, hfind]; rfl
      rw [List.filterMap_cons_some hname, List.filterMap_cons_none hnone]
      exact ih hrest
    · rw [List.filterMap_cons_some hname, List.filterMap_cons_some (found?_eq_some_iff.mpr hfind)]
      exact .cons (stepOf_calls f e.attributes) (ih hrest)

theorem readMarkup_calls {allowMissing : Bool} (h : readMarkup answer goal k allowMissing = .ok plan) :
    List.Forall₂ Calls (functionsIn .sequential k answer) plan.steps := by
  rw [readMarkup] at h
  rw [functionsIn, namesIn]
  cases helements : planElements? answer with
  | none =>
    rw [helements] at h
    cases h
  | some elements =>
    rw [helements] at h
    simp only [Option.getD_some]
    cases hsteps : stepsOf k allowMissing elements with
    | error e =>
      simp only [hsteps] at h
      cases h
    | ok steps =>
      simp only [hsteps, bind, Except.bind] at h
      split at h
      · cases h
      · obtain rfl := Except.ok.inj h
        rw [Plan.ofSteps_steps]
        exact stepsOf_calls hsteps

/-! ### Documents -/

theorem resolve_eq_ok_iff {name : String} {v : FunctionView} :
    resolve k name = .ok v ↔ ∃ f, found? k (trim name) = some f ∧ f.view = v := by
  simp only [found?_eq_some_iff]
  rw [resolve]
  cases k.registry.find (trim name) <;> simp

theorem readChoice_calls (h : readChoice answer goal k = .ok plan) :
    List.Forall₂ Calls (functionsIn .action k answer) plan.steps := by
  rw [readChoice] at h
  rw [functionsIn, namesIn]
  cases hread : readDocument Choice.decoder answer with
  | error e =>
    rw [hread] at h
    cases h
  | ok choice =>
    simp only [hread, bind, Except.bind] at h ⊢
    split at h
    · next hblank =>
      obtain rfl := Except.ok.inj h
      rw [if_pos hblank]
      exact .nil
    · next hblank =>
      rw [if_neg hblank]
      cases hresolve : resolve k choice.function with
      | error e =>
        rw [hresolve] at h
        cases h
      | ok v =>
        rw [hresolve] at h
        obtain rfl := Except.ok.inj h
        obtain ⟨f, hfound, rfl⟩ := resolve_eq_ok_iff.mp hresolve
        rw [List.filterMap_cons_some hfound, Plan.ofSteps_steps]
        exact .cons ⟨rfl, rfl⟩ .nil

theorem stepOfSubtask_calls {t : Subtask} {s : PlanStep} (h : stepOfSubtask k t = .ok s) :
    ∃ f, found? k (trim t.function) = some f ∧ Calls f s := by
  rw [stepOfSubtask] at h
  cases hresolve : resolve k t.function with
  | error e =>
    rw [hresolve] at h
    cases h
  | ok v =>
    rw [hresolve] at h
    obtain rfl := Except.ok.inj h
    obtain ⟨f, hfound, rfl⟩ := resolve_eq_ok_iff.mp hresolve
    exact ⟨f, hfound, rfl, rfl⟩

theorem stepsOfSubtasks_calls {subtasks : List Subtask} {steps : List PlanStep}
    (h : subtasks.mapM (stepOfSubtask k) = .ok steps) :
    List.Forall₂ Calls ((subtasks.map (trim ·.function)).filterMap (found? k)) steps := by
  have hall := mapM_eq_ok_iff.mp h
  clear h
  induction hall with
  | nil => exact .nil
  | cons hstep _ ih =>
    obtain ⟨f, hfound, hcalls⟩ := stepOfSubtask_calls hstep
    rw [List.map_cons, List.filterMap_cons_some hfound]
    exact .cons hcalls ih

/-- The input of the answer never changes which function a step calls. -/
theorem Calls.withTopInput {f : Function} {s : PlanStep} (h : Calls f s) (input : String) :
    Calls f (withTopInput input s) := by
  rw [Planner.withTopInput]
  split <;> exact h

theorem readSubtasks_calls (h : readSubtasks answer goal k = .ok plan) :
    List.Forall₂ Calls (functionsIn .basic k answer) plan.steps := by
  rw [readSubtasks] at h
  rw [functionsIn, namesIn]
  cases hread : readDocument Breakdown.decoder answer with
  | error e =>
    rw [hread] at h
    cases h
  | ok breakdown =>
    simp only [hread, bind, Except.bind] at h ⊢
    cases hsteps : breakdown.subtasks.mapM (stepOfSubtask k) with
    | error e =>
      rw [hsteps] at h
      cases h
    | ok steps =>
      rw [hsteps] at h
      have hcalls := stepsOfSubtasks_calls hsteps
      cases steps with
      | nil => cases h
      | cons first rest =>
        obtain rfl := Except.ok.inj h
        rw [Plan.ofSteps_steps]
        obtain ⟨f, fs, hfirst, hrest, hnamed⟩ := List.forall₂_cons_right_iff.mp hcalls
        rw [hnamed]
        exact .cons (hfirst.withTopInput breakdown.input) hrest

/-! ### All readers -/

/-- **Steps call what the answer names**: the functions found by its names, in order, each under the names
in its view. -/
theorem read_calls {planner : Planner} {c : Config.Planner}
    (h : planner.read k c goal answer = .ok plan) :
    List.Forall₂ Calls (planner.functionsIn k answer) plan.steps := by
  cases planner with
  | sequential => exact readMarkup_calls h
  | action => exact readChoice_calls h
  | basic => exact readSubtasks_calls h

/-- Each step that was read comes from a function. -/
theorem exists_left_of_forall₂ {R : Function → PlanStep → Prop} {fs : List Function}
    {steps : List PlanStep} (h : List.Forall₂ R fs steps) {s : PlanStep} (hs : s ∈ steps) :
    ∃ f ∈ fs, R f s := by
  induction h with
  | nil => cases hs
  | cons hfirst _ ih =>
    rcases List.mem_cons.mp hs with rfl | hs
    · exact ⟨_, List.mem_cons_self, hfirst⟩
    · obtain ⟨f, hf, hR⟩ := ih hs
      exact ⟨f, List.mem_cons_of_mem _ hf, hR⟩

/-- Each function becomes a step that was read. -/
theorem exists_right_of_forall₂ {R : Function → PlanStep → Prop} {fs : List Function}
    {steps : List PlanStep} (h : List.Forall₂ R fs steps) {f : Function} (hf : f ∈ fs) :
    ∃ s ∈ steps, R f s := by
  induction h with
  | nil => cases hf
  | cons hfirst _ ih =>
    rcases List.mem_cons.mp hf with rfl | hf
    · exact ⟨_, List.mem_cons_self, hfirst⟩
    · obtain ⟨s, hs, hR⟩ := ih hf
      exact ⟨s, List.mem_cons_of_mem _ hs, hR⟩

/-- The step calls the function, and looking its two names up leads to it. -/
def Resolves (k : Kernel) (f : Function) (s : PlanStep) : Prop :=
  Calls f s ∧ k.registry.get s.plugin s.function = .ok f

/-- A function that an answer names was found, and so its view leads back to it. -/
theorem resolves_of_calls (hk : k.registry.Filed) {planner : Planner} {f : Function} {s : PlanStep}
    (hf : f ∈ planner.functionsIn k answer) (h : Calls f s) : Resolves k f s := by
  obtain ⟨name, -, hfound⟩ := List.mem_filterMap.mp hf
  have hget := Registry.find_eq_ok_iff.mp (found?_eq_some_iff.mp hfound)
  refine ⟨h, ?_⟩
  rw [h.1, h.2]
  exact Registry.get_eq_ok_iff.mpr (hk.get_view hget)

/-- **Plans that were read can be run**: in a kernel put together in any way, the steps read from any answer
lead back to the very functions that the answer names, and no run of the plan stops at a function that is
not there. -/
theorem read_runnable (assembly : List Assembly) (planner : Planner) (c : Config.Planner)
    (goal answer : String) (plan : Plan)
    (h : planner.read (Kernel.assembled assembly) c goal answer = .ok plan) :
    List.Forall₂ (Resolves (Kernel.assembled assembly))
        (planner.functionsIn (Kernel.assembled assembly) answer) plan.steps ∧
      plan.NeverStuck (Kernel.assembled assembly) := by
  have hfiled := Kernel.filed_assembled assembly
  have hnamed : List.Forall₂ (fun f s => f ∈ planner.functionsIn (Kernel.assembled assembly) answer ∧ Calls f s)
      (planner.functionsIn (Kernel.assembled assembly) answer) plan.steps :=
    (List.forall₂_and_left _ _).mpr ⟨fun _ hf => hf, read_calls h⟩
  have hsteps := hnamed.imp fun f s hfs => resolves_of_calls hfiled hfs.1 hfs.2
  refine ⟨hsteps, Plan.neverStuck_of_there fun s hs => ?_⟩
  obtain ⟨f, -, hresolves⟩ := exists_left_of_forall₂ hsteps hs
  exact ⟨f, hresolves.2⟩

/-- A function that was replaced under another spelling is found under a third, and a function without a
plugin under the global one. -/
theorem read_runnable_respelled :
    let k := Kernel.assembled [.register "Text" (.echo "Upper"), .register "tEXT" (.echo "UPPER"),
      .importPlugin "" [.echo "Joke"]]
    let answer := "<plan><function.TEXT.upper/><function.joke/></plan>"
    let plan : Plan := {
      goal := "g"
      steps := [⟨"tEXT", "UPPER", ∅, [], none⟩, ⟨globalPlugin, "Joke", ∅, [], none⟩] }
    Planner.sequential.read k {} "g" answer = .ok plan ∧
      List.Forall₂ (Resolves k) (Planner.sequential.functionsIn k answer) plan.steps ∧
      plan.NeverStuck k := by
  intro k answer plan
  have hread : Planner.sequential.read k {} "g" answer = .ok plan := by decide +kernel
  exact ⟨hread, read_runnable _ _ _ _ _ _ hread⟩

end Planner

end Orchestration
