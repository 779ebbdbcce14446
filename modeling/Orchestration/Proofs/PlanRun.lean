import Orchestration.Plan.Run
import Orchestration.Proofs.Registry
import Orchestration.Proofs.Transcript

/-!
# Runs of plans

What a run of a plan asks for and how it ends, step by step.

* `Plan.runStep_cases` — a step calls its function once, or fails without a call if there is none.
* `Plan.runSteps_cons_cases` — the first step, and then the others on the state that it leaves.
* `Plan.runSteps_failed` — steps whose functions are all there fail only by a failure of one of these.
* `Plan.NeverStuck` — the plans of which no run stops at a function that is not there.
-/

namespace Orchestration.Plan

open Text

variable {k : Kernel} {log : List (Exchange Errands)} {index : Nat} {step : PlanStep}
  {state : Variables}

/-- The context of a step whose function is not there. -/
def cannotRun (index : Nat) : String := s!"plan step {index} cannot run"

/-- The context of a failure of the function of a step. -/
def stepFailed (index : Nat) (step : PlanStep) : String :=
  s!"plan step {index} ({step.qualified}) failed"

/-- The two contexts end in different letters. -/
theorem stepFailed_ne_cannotRun (index : Nat) (step : PlanStep) (other : Nat) :
    stepFailed index step ≠ cannotRun other := by
  intro h
  have hd : (stepFailed index step).toList.getLast? = some 'd' := by
    have hmark : ") failed".toList = ") faile".toList ++ ['d'] := by decide
    simp only [stepFailed, toString, String.toList_append, hmark, ← List.append_assoc,
      List.getLast?_concat]
  have hn : (cannotRun other).toList.getLast? = some 'n' := by
    have hmark : " cannot run".toList = " cannot ru".toList ++ ['n'] := by decide
    simp only [cannotRun, toString, String.toList_append, hmark, ← List.append_assoc,
      List.getLast?_concat]
  rw [h, hn] at hd
  exact absurd hd (by decide)

/-- **A step** whose function is not there fails without asking for anything; otherwise it calls the
function once, and its outcome is the trimmed answer. -/
theorem runStep_cases {outcome : Except Failure String}
    (h : Ends (runStep k index step state) log outcome) :
    (∃ e : KernelError, k.registry.get step.plugin step.function = .error e ∧ log = [] ∧
      outcome = .error ((e : Failure).within (cannotRun index))) ∨
    ∃ f answer, k.registry.get step.plugin step.function = .ok f ∧
      log = [⟨.call f (argumentsFor step state), answer⟩] ∧
      outcome = (answer.mapError (·.within (stepFailed index step))).map trim := by
  cases hget : k.registry.get step.plugin step.function with
  | error e =>
    rw [runStep, hget] at h
    obtain ⟨rfl, rfl⟩ := Task.ends_error_bind.mp h
    exact .inl ⟨e, rfl, rfl, rfl⟩
  | ok f =>
    rw [runStep, hget] at h
    refine .inr ⟨f, ?_⟩
    rcases Task.ends_mapError_bind.mp (Task.ends_ok_bind.mp h) with
      ⟨cause, hask, rfl⟩ | ⟨first, output, later, hask, hpure, rfl⟩
    · exact ⟨.error cause, rfl, Task.ends_call.mp hask, rfl⟩
    · obtain ⟨rfl, rfl⟩ := ends_pure.mp hpure
      exact ⟨.ok output, rfl, by rw [Task.ends_call.mp hask, List.append_nil], rfl⟩

/-- **Steps in order**: the first fails, or the others go on from the state that it leaves. -/
theorem runSteps_cons_cases {steps : List PlanStep} {outcome : Except Failure (Variables × List String)}
    (h : Ends (runSteps k index (step :: steps) state) log outcome) :
    (∃ e, Ends (runStep k index step state) log (.error e) ∧ outcome = .error e) ∨
    ∃ first output later rest, Ends (runStep k index step state) first (.ok output) ∧
      Ends (runSteps k (index + 1) steps (record step output state)) later rest ∧
      log = first ++ later ∧
      outcome = rest.map fun r => (r.1, if step.appendTo.isSome then output :: r.2 else r.2) := by
  rw [runSteps] at h
  rcases ends_bind.mp h with ⟨e, hstep, rfl⟩ | ⟨first, output, later, hstep, hrest, rfl⟩
  · exact .inl ⟨e, hstep, rfl⟩
  · refine .inr ⟨first, output, later, ?_⟩
    rcases ends_bind.mp hrest with ⟨e, hfail, rfl⟩ | ⟨middle, ⟨last, added⟩, ending, hok, hpure, rfl⟩
    · exact ⟨.error e, hstep, hfail, rfl, rfl⟩
    · obtain ⟨rfl, rfl⟩ := ends_pure.mp hpure
      exact ⟨.ok (last, added), hstep, by rwa [List.append_nil], rfl, rfl⟩

/-- **Steps whose functions are all there** fail only by a failure of the function of one of them, which is
the answer to the last call. -/
theorem runSteps_failed {steps : List PlanStep}
    (hthere : ∀ s ∈ steps, ∃ f, k.registry.get s.plugin s.function = .ok f) {e : Failure}
    (h : Ends (runSteps k index steps state) log (.error e)) :
    ∃ n step f v cause, steps[n]? = some step ∧ k.registry.get step.plugin step.function = .ok f ∧
      log.getLast? = some ⟨.call f v, .error cause⟩ ∧
      e = cause.within (stepFailed (index + n) step) := by
  induction steps generalizing index state log with
  | nil =>
    obtain ⟨-, hout⟩ := ends_pure.mp h
    cases hout
  | cons s steps ih =>
    rcases runSteps_cons_cases h with ⟨e', hstep, he⟩ | ⟨first, output, later, rest, -, hrest, rfl, he⟩
    · obtain rfl := Except.error.inj he
      rcases runStep_cases hstep with ⟨missing, hget, -, -⟩ | ⟨f, answer, hget, rfl, hout⟩
      · obtain ⟨f, hf⟩ := hthere s List.mem_cons_self
        rw [hf] at hget
        cases hget
      · cases answer with
        | ok output => cases hout
        | error cause =>
          obtain rfl := Except.error.inj hout
          exact ⟨0, s, f, _, cause, rfl, hget, rfl, rfl⟩
    · cases rest with
      | ok r => cases he
      | error e' =>
        obtain rfl := Except.error.inj he
        obtain ⟨n, step, f, v, cause, hn, hf, hlast, hwithin⟩ :=
          ih (fun s hs => hthere s (List.mem_cons_of_mem _ hs)) hrest
        refine ⟨n + 1, step, f, v, cause, hn, hf, ?_, ?_⟩
        · rw [List.getLast?_append, hlast]
          rfl
        · rw [hwithin, Nat.add_assoc, Nat.add_comm 1 n]

/-- **No run stops at a function that is not there**: whatever the variables and the answers to its calls, a
run that fails does so by the failure of a function that it called last, and says so. -/
def NeverStuck (k : Kernel) (p : Plan) : Prop :=
  ∀ initial log e, Ends (p.run k initial) log (.error e) →
    (∃ n step f v cause, p.steps[n]? = some step ∧ k.registry.get step.plugin step.function = .ok f ∧
      log.getLast? = some ⟨.call f v, .error cause⟩ ∧ e = cause.within (stepFailed (n + 1) step)) ∧
    ∀ n, e.headline ≠ cannotRun n

theorem neverStuck_of_there {p : Plan}
    (hthere : ∀ s ∈ p.steps, ∃ f, k.registry.get s.plugin s.function = .ok f) : p.NeverStuck k := by
  intro initial log e h
  rw [run] at h
  rcases ends_bind.mp h with ⟨e', hsteps, he⟩ | ⟨_, _, _, _, hpure, _⟩
  · obtain rfl := Except.error.inj he
    obtain ⟨n, step, f, v, cause, hn, hf, hlast, rfl⟩ := runSteps_failed hthere hsteps
    rw [Nat.add_comm 1 n]
    exact ⟨⟨n, step, f, v, cause, hn, hf, hlast, rfl⟩,
      fun other => stepFailed_ne_cannotRun (n + 1) step other⟩
  · obtain ⟨-, hout⟩ := ends_pure.mp hpure
    cases hout

end Orchestration.Plan
