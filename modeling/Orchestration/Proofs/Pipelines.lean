import Orchestration.Proofs.PlanTurns

/-!
# Pipelines

Functions in a row are called one after the other, each on the variables with the output of the one before it as input.
The defaults that a function fills in are its own: nothing but its output flows on.

* `Kernel.run_append` — two pipelines in a row are one.
* `Kernel.Piped` — calls in a row; `Kernel.Piped.flow` says what they make of the variables.
* `Kernel.Flowed` — how a pipeline ends, at its end or at the first function that fails.
* `Kernel.run_inRow` — a pipeline as a whole.
-/

namespace Orchestration

namespace Program

variable {S T : Signature} {α β : Type}

/-- A sequence is carried out part by part. -/
theorem perform_bind (carry : (r : S.Request) → Program T (S.Answer r)) (p : Program S α) (f : α → Program S β) :
    (p >>= f).perform carry = p.perform carry >>= fun value => (f value).perform carry := by
  induction p with
  | done value => rfl
  | ask request next ih => simp only [ask_bind, perform, ih, bind_assoc]

end Program

/-- So is one that may fail. -/
theorem Task.perform_bind {ε α β : Type} (t : Task ε α) (f : α → Task ε β) :
    (t >>= f).perform = t.perform >>= fun value => (f value).perform := by
  have hrun := Program.perform_bind (S := Errands) Errand.carry t.run (ExceptT.bindCont f)
  refine (congrArg ExceptT.mk hrun).trans (congrArg ExceptT.mk (congrArg _ (funext fun outcome => ?_)))
  cases outcome <;> rfl

namespace Kernel

open Variables

variable {f : Function} {fs gs : List Function} {v last : Variables} {log : List (Exchange Errands)}
  {outputs : List String}

/-- **Two pipelines in a row**: the second goes on with the variables that the first leaves. -/
theorem run_append (fs gs : List Function) (v : Variables) : run (fs ++ gs) v = run fs v >>= run gs := by
  induction fs generalizing v with
  | nil => rfl
  | cons f fs ih =>
    rw [List.cons_append, run, run, bind_assoc]
    simp only [ih]

/-- The context of the failure of a function in a pipeline. -/
def stageFailed (f : Function) : String := s!"pipeline step {f.view.qualified} failed"

/-- **The first function** of a pipeline is called. If it fails the pipeline does, and says so; otherwise the others go on
with its output. -/
theorem ends_run_cons {outcome : Except Failure Variables} : Ends (run (f :: fs) v) log outcome ↔
    (∃ cause : Failure, log = [⟨.call f v, .error cause⟩] ∧ outcome = .error (cause.within (stageFailed f))) ∨
      ∃ output later, log = ⟨.call f v, .ok output⟩ :: later ∧ Ends (run fs (v.setInput output)) later outcome := by
  rw [run, Task.ends_mapError_bind]
  constructor
  · rintro (⟨cause, hcall, rfl⟩ | ⟨first, output, later, hcall, hrest, rfl⟩)
    · exact .inl ⟨cause, Task.ends_call.mp hcall, rfl⟩
    · rw [Task.ends_call.mp hcall]
      exact .inr ⟨output, later, rfl, hrest⟩
  · rintro (⟨cause, rfl, rfl⟩ | ⟨output, later, rfl, hrest⟩)
    · exact .inl ⟨cause, Task.ends_call.mpr rfl, rfl⟩
    · exact .inr ⟨_, output, later, Task.ends_call.mpr rfl, hrest, rfl⟩

/-! ### Calls in a row -/

/-- **Calls in a row**: each function is called once, the first on the variables as they are and each other on those
with the output before it as input. -/
inductive Piped : Variables → List Function → List String → List (Exchange Errands) → Variables → Prop where
  | nil (v : Variables) : Piped v [] [] [] v
  | cons {v last : Variables} {f : Function} {fs : List Function} {output : String} {outputs : List String}
      {log : List (Exchange Errands)} (rest : Piped (v.setInput output) fs outputs log last) :
      Piped v (f :: fs) (output :: outputs) (⟨.call f v, .ok output⟩ :: log) last

/-- **What calls in a row make of the variables**: the input is the last output, if there is one, and all others are as
they were. -/
theorem Piped.flow (h : Piped v fs outputs log last) :
    SameExcept [inputName] v last ∧ last.get? inputName = outputs.getLast?.or (v.get? inputName) := by
  induction h with
  | nil v => exact ⟨.refl _ v, rfl⟩
  | @cons v last f fs output outputs log _ ih =>
    obtain ⟨hothers, hinput⟩ := ih
    refine ⟨(sameExcept_set List.mem_cons_self v output).trans hothers, ?_⟩
    rw [hinput, setInput, get?_set_self, List.getLast?_cons]
    cases outputs.getLast? <;> rfl

/-- **How a pipeline ends.** -/
inductive Flowed (v : Variables) (fs : List Function) :
    List (Exchange Errands) → Except Failure Variables → Prop where
  /-- all functions are called in a row; at the end the input is the last output, and nothing else has changed -/
  | through {outputs : List String} {log : List (Exchange Errands)} {last : Variables}
      (piped : Piped v fs outputs log last) (others : SameExcept [inputName] v last)
      (input : last.get? inputName = outputs.getLast?.or (v.get? inputName)) : Flowed v fs log (.ok last)
  /-- those before the first that fails are; its call is the last, and the failure says which it was -/
  | broken {passed rest : List Function} {f : Function} {outputs : List String} {log : List (Exchange Errands)}
      {before : Variables} {cause : Failure} (split : fs = passed ++ f :: rest)
      (piped : Piped v passed outputs log before) :
      Flowed v fs (log ++ [⟨.call f before, .error cause⟩]) (.error (cause.within (stageFailed f)))

theorem Piped.flowed (h : Piped v fs outputs log last) : Flowed v fs log (.ok last) :=
  .through h h.flow.1 h.flow.2

/-- A function that returns before them changes nothing in how others end. -/
theorem Flowed.cons {output : String} {outcome : Except Failure Variables}
    (h : Flowed (v.setInput output) fs log outcome) :
    Flowed v (f :: fs) (⟨.call f v, .ok output⟩ :: log) outcome := by
  cases h with
  | through piped _ _ => exact piped.cons.flowed
  | @broken passed rest g outputs first before cause split piped =>
    have hsplit : f :: fs = f :: passed ++ g :: rest := by rw [split, List.cons_append]
    exact .broken hsplit piped.cons

theorem Piped.ends_run (h : Piped v fs outputs log last) : Ends (run fs v) log (.ok last) := by
  induction h with
  | nil v => exact ends_pure.mpr ⟨rfl, rfl⟩
  | cons _ ih => exact ends_run_cons.mpr (.inr ⟨_, _, rfl, ih⟩)

/-- A failure after calls in a row is how the whole pipeline ends. -/
theorem Piped.ends_run_append (h : Piped v fs outputs log last) {later : List (Exchange Errands)}
    {outcome : Except Failure Variables} (hlater : Ends (run gs last) later outcome) :
    Ends (run (fs ++ gs) v) (log ++ later) outcome := by
  rw [run_append]
  exact ends_bind.mpr (.inr ⟨log, last, later, h.ends_run, hlater, rfl⟩)

/-- **A pipeline ends** in these ways, and in no other. -/
theorem ends_run_iff {outcome : Except Failure Variables} : Ends (run fs v) log outcome ↔ Flowed v fs log outcome := by
  constructor
  · intro h
    induction fs generalizing v log with
    | nil =>
      obtain ⟨rfl, rfl⟩ := ends_pure.mp h
      exact (Piped.nil v).flowed
    | cons f fs ih =>
      rcases ends_run_cons.mp h with ⟨cause, rfl, rfl⟩ | ⟨output, later, rfl, hrest⟩
      · exact .broken (List.nil_append _).symm (.nil v)
      · exact (ih hrest).cons
  · intro h
    cases h with
    | through piped _ _ => exact piped.ends_run
    | broken split piped =>
      rw [split]
      exact piped.ends_run_append (ends_run_cons.mpr (.inl ⟨_, rfl, rfl⟩))

/-- **A pipeline as a whole.** Two in a row are one: the second goes on with the variables that the first leaves, or is
not begun if that fails, and so it is once the calls are carried out. A pipeline calls its functions in a row, to its end
or to the first that fails. -/
theorem run_inRow (fs gs : List Function) (v : Variables) :
    run (fs ++ gs) v = run fs v >>= run gs ∧
      Task.perform (run (fs ++ gs) v) = (Task.perform (run fs v) >>= fun last => Task.perform (run gs last)) ∧
      ∀ log outcome, Ends (run fs v) log outcome ↔ Flowed v fs log outcome := by
  refine ⟨run_append fs gs v, ?_, fun log outcome => ends_run_iff⟩
  rw [run_append, Task.perform_bind]

/-- The second of three functions fails: the third is not called, and the failure says which it was. -/
theorem run_inRow_broken :
    let f := (Function.echo "Upper").inPlugin "text"
    let v := Variables.ofList [("input", "hi"), ("city", "Rome")]
    let cause := Failure.text "too loud"
    Ends (run [f, f, f] v) [⟨.call f v, .ok "HI"⟩, ⟨.call f (v.setInput "HI"), .error cause⟩]
      (.error (cause.within "pipeline step text.Upper failed")) := by
  intro f v cause
  have hcontext : stageFailed f = "pipeline step text.Upper failed" := by decide
  have hsplit : [f, f, f] = [f] ++ f :: [f] := rfl
  obtain ⟨-, -, hends⟩ := run_inRow [f, f, f] [] v
  rw [← hcontext]
  exact (hends _ _).mpr (.broken hsplit (.cons (.nil _)))

end Kernel

end Orchestration
