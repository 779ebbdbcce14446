import Orchestration.Planner.Selection
import Orchestration.Proofs.Registry
import Orchestration.Proofs.Transcript

/-!
# The functions on offer

What the choice of functions for a goal asks for, and what it comes to.

* `Planner.mem_offered_iff` — a function is on offer if it is registered and not kept back.
* `Planner.available_stays` — the choice asks for vectors only; it is made among the functions on offer, and
  fails only where the services do.
-/

namespace Orchestration

/-- The failure comes from the model or the memory. -/
def PlanningError.IsOfService (e : PlanningError) : Prop :=
  (∃ cause, e = .ai cause) ∨ ∃ cause, e = .memory cause

namespace Planner

variable {k : Kernel} {c : Config.Planner} {goal : String}

theorem mem_offered_iff {v : FunctionView} :
    v ∈ offered k c ↔ v ∈ k.registry.views ∧ isExcluded c v = false := by
  rw [offered, List.mem_filter, Bool.not_eq_true']

/-- Without a threshold the functions on offer are all that are not kept back. -/
theorem available_of_no_threshold (h : c.relevancyThreshold = none) :
    available k c goal = pure (offered k c) := by
  rw [available, h]

/-- So they are without a memory. -/
theorem available_of_all (h : c.relevancyThreshold = none ∨ k.memory = none) :
    available k c goal = pure (offered k c) := by
  rcases h with hthreshold | hmemory
  · exact available_of_no_threshold hthreshold
  · rw [available, hmemory]
    split
    · next h => cases h
    · rfl

/-- Nothing is asked for then. -/
theorem ends_available_of_all (h : c.relevancyThreshold = none ∨ k.memory = none) {log : List (Exchange Errands)}
    {outcome : Except PlanningError (List FunctionView)} :
    Ends (available k c goal) log outcome ↔ log = [] ∧ outcome = .ok (offered k c) := by
  rw [available_of_all h]
  exact ends_pure

/-- A name leads to a view that is among those it was looked up in. -/
theorem mem_of_viewNamed? {views : List FunctionView} {name : String} {v : FunctionView}
    (h : viewNamed? views name = some v) : v ∈ views :=
  List.mem_reverse.mp (List.mem_of_find?_eq_some h)

/-- The outcome is a choice among the views, or a failure of the services. -/
def IsChoiceAmong (views : List FunctionView) (outcome : Except PlanningError (List FunctionView)) : Prop :=
  match outcome with
  | .ok found => ∀ v ∈ found, v ∈ views
  | .error e => e.IsOfService

/-- Nothing but a vector is asked for where a text is turned into one. -/
theorem embedOne_stays (embedder : Embedder) (text : String) :
    Stays (Task.embedOne embedder text) (fun r => Errand.isEmbedding r) fun _ => True := by
  refine stays_bind (Task.stays_embed rfl fun _ _ _ => trivial) fun vectors => ?_
  split
  · exact stays_pure trivial
  · exact stays_throw trivial

/-- A failure on the way is one of the services, if all that are passed on are. -/
theorem isChoiceAmong_of_mapError {ε α : Type} {f : ε → PlanningError}
    (hf : ∀ cause, (f cause).IsOfService) (views : List FunctionView) (inner : Except ε α)
    (e : PlanningError) (h : inner.mapError f = .error e) : IsChoiceAmong views (.error e) := by
  cases inner with
  | ok _ => cases h
  | error cause =>
    obtain rfl := Except.error.inj h
    exact hf cause

theorem closest_stays (c : Config.Planner) (threshold : Float) (embedder : Embedder) (goal : String)
    (views : List FunctionView) :
    Stays (closest c threshold embedder goal views) (fun r => Errand.isEmbedding r)
      (IsChoiceAmong views) := by
  have hai : ∀ cause : AiError, (PlanningError.ai cause).IsOfService := fun cause => .inl ⟨cause, rfl⟩
  have hmemory : ∀ cause : MemoryError, (PlanningError.memory cause).IsOfService :=
    fun cause => .inr ⟨cause, rfl⟩
  refine stays_bind (Task.stays_mapError (Task.stays_embed rfl ?_)) fun vectors => ?_
  · exact isChoiceAmong_of_mapError hai views
  refine stays_bind (Task.stays_ofExcept (isChoiceAmong_of_mapError hmemory views _)) fun store => ?_
  refine stays_bind (Task.stays_mapError fun log outcome hends => ?_) fun vector => ?_
  · exact ⟨(embedOne_stays embedder goal log outcome hends).1, isChoiceAmong_of_mapError hai views outcome⟩
  · refine stays_bind (Task.stays_ofExcept (isChoiceAmong_of_mapError hmemory views _)) fun found =>
      stays_pure ?_
    intro v hv
    obtain ⟨near, -, hnamed⟩ := List.mem_filterMap.mp hv
    exact mem_of_viewNamed? hnamed

/-- **The choice of functions** asks for vectors only, whatever is answered; what is chosen is on offer, and a
failure comes from the services. -/
theorem available_stays (k : Kernel) (c : Config.Planner) (goal : String) :
    Stays (available k c goal) (fun r => Errand.isEmbedding r) (IsChoiceAmong (offered k c)) := by
  rw [available]
  split
  · split
    · exact stays_pure fun _ hv => hv
    · exact closest_stays c _ _ goal _
  · exact stays_pure fun _ hv => hv

end Planner

end Orchestration
