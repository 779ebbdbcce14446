import Mathlib.Data.List.Induction
import Orchestration.Proofs.PlanRun

/-!
# The turns of a run

A run of a plan takes its steps in turns: each calls one function on variables of its own, and what the turn
leaves is the state of the next. Besides the running input a turn writes only the variables that its step
names, so arguments are gone once their function has returned.

* `Variables.SameExcept` — states that agree but for some names.
* `Plan.Passes`, `Plan.passes_argumentsFor` — what a function is called with: every argument is expanded in the
  state before the step.
* `Plan.Turns` — turns in a row, each in the state that the one before it left.
* `Plan.runSteps_ok_turns`, `Plan.runSteps_error_turns` — what a run asks for are its turns, up to the first step
  that fails.
* `Plan.run_inTurns` — a run as a whole.
-/

namespace Orchestration

open Text

/-! ### States that agree but for some names -/

namespace Variables

variable {names others : List String} {u v w : Variables}

/-- What is held under a key is the same in both states, unless the key is the small form of one of the
names. -/
def SameExcept (names : List String) (v w : Variables) : Prop :=
  ∀ key, key ∉ names.map lower → w.held.get? key = v.held.get? key

theorem SameExcept.refl (names : List String) (v : Variables) : SameExcept names v v := fun _ _ => rfl

theorem SameExcept.trans (h : SameExcept names u v) (hnext : SameExcept names v w) : SameExcept names u w :=
  fun key hkey => (hnext key hkey).trans (h key hkey)

theorem SameExcept.mono (h : SameExcept names v w) (hsub : names ⊆ others) : SameExcept others v w :=
  fun key hkey => h key fun hmem => hkey (List.map_subset lower hsub hmem)

/-- A variable that goes by none of the names has the same text, or none, in both states. -/
theorem SameExcept.get? (h : SameExcept names v w) {name : String}
    (hname : ∀ other ∈ names, lower other ≠ lower name) : w.get? name = v.get? name := by
  refine h (lower name) fun hmem => ?_
  obtain ⟨other, hother, hsame⟩ := List.mem_map.mp hmem
  exact hname other hother hsame

theorem sameExcept_set {name : String} (hname : name ∈ names) (v : Variables) (value : String) :
    SameExcept names v (v.set name value) := by
  intro key hkey
  refine Dictionary.get?_insert_ne _ _ fun hsame => hkey ?_
  exact hsame ▸ List.mem_map_of_mem hname

/-- Of variables set one after another a look-up finds the last that goes by the key. -/
theorem held_foldl_set (pairs : List (String × String)) (text : String → String) (v : Variables)
    (key : String) :
    (pairs.foldl (fun v p => v.set p.1 (text p.2)) v).held.get? key =
      match pairs.reverse.find? fun p => lower p.1 = key with
      | some p => some (text p.2)
      | none => v.held.get? key := by
  -- the induction is from the back: the last variable that goes by the key is the one that stays
  induction pairs using List.reverseRecOn with
  | nil => rfl
  | append_singleton pairs p ih =>
    rw [List.foldl_append, List.reverse_append, List.reverse_singleton, List.singleton_append,
      List.find?_cons]
    rw [List.foldl_cons, List.foldl_nil, held_set]
    by_cases hkey : lower p.1 = key
    · rw [if_pos hkey.symm, decide_eq_true hkey]
    · rw [if_neg (Ne.symm hkey), decide_eq_false hkey, ih]

theorem lower_inputName : lower inputName = inputName := by decide

theorem lower_resultName_ne : lower resultName ≠ lower inputName := by decide

end Variables

namespace Plan

open Variables

variable {k : Kernel} {log : List (Exchange Errands)} {index : Nat} {step : PlanStep}
  {state : Variables}

/-! ### What a function is called with -/

/-- The argument of a step that goes by a key: of several the last in the order of their names. -/
def argument? (step : PlanStep) (key : String) : Option String :=
  (step.parameters.entries.reverse.find? fun p => lower p.1 = key).map (·.2)

/-- **What a function is called with** in a step. -/
structure Passes (step : PlanStep) (before passed : Variables) : Prop where
  /-- the input is the argument of that name, expanded, unless it is empty or there is none; then it is the
  running input -/
  input : passed.get? inputName = some (match (step.parameters.get? inputName).filter (!·.isEmpty) with
    | some value => expand value before
    | none => before.input)
  /-- every other variable is the argument that goes by its name, expanded in the state before the step, or
  else as in that state -/
  others : ∀ key, key ≠ inputName → passed.held.get? key = match argument? step key with
    | some value => some (expand value before)
    | none => before.held.get? key

theorem passes_argumentsFor (step : PlanStep) (state : Variables) :
    Passes step state (argumentsFor step state) where
  input := by
    rw [argumentsFor]
    cases (step.parameters.get? inputName).filter (!·.isEmpty) with
    | some value => exact get?_set_self ..
    | none => exact get?_set_self ..
  others key hkey := by
    have hinput : ∀ (v : Variables) (value : String), (v.setInput value).held.get? key = v.held.get? key :=
      fun v value => Dictionary.get?_insert_ne _ _ (by rwa [lower_inputName])
    rw [argumentsFor, argument?]
    cases (step.parameters.get? inputName).filter (!·.isEmpty) with
    | some value =>
      rw [hinput, held_foldl_set _ (expand · state)]
      cases step.parameters.entries.reverse.find? fun p => lower p.1 = key <;> rfl
    | none =>
      rw [hinput, held_foldl_set _ (expand · state)]
      cases step.parameters.entries.reverse.find? fun p => lower p.1 = key <;> rfl

/-- Nothing is left open by this. -/
theorem Passes.eq_argumentsFor {passed : Variables} (h : Passes step state passed) :
    passed = argumentsFor step state := by
  have hpassed := passes_argumentsFor step state
  refine ext_held fun key => ?_
  by_cases hkey : key = inputName
  · have hinput : ∀ v : Variables, v.held.get? inputName = v.get? inputName := fun v => by
      rw [Variables.get?, lower_inputName]
    rw [hkey, hinput, hinput, h.input, hpassed.input]
  · rw [h.others key hkey, hpassed.others key hkey]

/-! ### What a step writes -/

/-- The names that a step writes to besides the running input. -/
def written (step : PlanStep) : List String := step.outputs ++ step.appendTo.toList

/-- **A step writes** the running input and what it names, and nothing else. -/
theorem record_sameExcept (step : PlanStep) (output : String) (state : Variables) :
    SameExcept (inputName :: written step) state (record step output state) := by
  have hinput : SameExcept (inputName :: written step) state (state.setInput output) :=
    sameExcept_set List.mem_cons_self state output
  have houtputs : ∀ names ⊆ step.outputs, ∀ v, SameExcept (inputName :: written step) v
      (names.foldl (fun v name => v.set name output) v) := by
    intro names
    induction names with
    | nil => exact fun _ v => .refl _ v
    | cons name names ih =>
      intro hsub v
      have hname : name ∈ inputName :: written step :=
        List.mem_cons_of_mem _ (List.mem_append_left _ (hsub List.mem_cons_self))
      exact (sameExcept_set hname v output).trans (ih (fun _ hn => hsub (List.mem_cons_of_mem _ hn)) _)
  have hstored := hinput.trans (houtputs step.outputs (List.Subset.refl _) _)
  rw [record]
  cases happend : step.appendTo with
  | none => exact hstored
  | some name =>
    have hname : name ∈ inputName :: written step := by
      refine List.mem_cons_of_mem _ (List.mem_append_right _ ?_)
      rw [happend]
      exact List.mem_singleton_self name
    refine hstored.trans ?_
    dsimp only [appendOutput]
    split
    · exact sameExcept_set hname _ _
    · exact sameExcept_set hname _ _

/-- The end of a run writes the collected result, and nothing else. -/
theorem finish_sameExcept (state : Variables) (added : List String) :
    SameExcept [resultName] state (finish state added).state := by
  rw [finish]
  split
  · exact .refl _ state
  · exact sameExcept_set List.mem_cons_self state _

/-! ### Turns -/

/-- A step that went through. -/
structure Turn where
  /-- the step -/
  step : PlanStep
  /-- the state before it -/
  before : Variables
  /-- the function that it called -/
  function : Function
  /-- the variables that the function was called with -/
  passed : Variables
  /-- what the function answered -/
  answer : String

namespace Turn

/-- What was asked for, and the answer. -/
def exchange (t : Turn) : Exchange Errands := ⟨.call t.function t.passed, .ok t.answer⟩

/-- The output of the step. -/
def output (t : Turn) : String := trim t.answer

/-- The state after the step. -/
def after (t : Turn) : Variables := record t.step t.output t.before

end Turn

/-- **Turns in a row**: each calls the function that its step names, and starts in the state that the turn before
it left. -/
inductive Turns (k : Kernel) : Variables → List Turn → Variables → Prop where
  | nil (state : Variables) : Turns k state [] state
  | cons {t : Turn} {turns : List Turn} {last : Variables}
      (found : k.registry.get t.step.plugin t.step.function = .ok t.function)
      (passes : Passes t.step t.before t.passed) (rest : Turns k t.after turns last) :
      Turns k t.before (t :: turns) last

variable {turns first rest : List Turn} {last : Variables}

theorem Turns.found (h : Turns k state turns last) {t : Turn} (ht : t ∈ turns) :
    k.registry.get t.step.plugin t.step.function = .ok t.function ∧ Passes t.step t.before t.passed := by
  induction h with
  | nil => cases ht
  | cons found passes _ ih =>
    rcases List.mem_cons.mp ht with rfl | ht
    · exact ⟨found, passes⟩
    · exact ih ht

/-- **Turns write** what their steps name, and the running input. -/
theorem Turns.sameExcept (h : Turns k state turns last) :
    SameExcept (inputName :: (turns.map (·.step)).flatMap written) state last := by
  induction h with
  | nil => exact .refl _ _
  | @cons t turns last _ _ _ ih =>
    rw [List.map_cons, List.flatMap_cons]
    -- what this turn writes, and then what the others do
    refine ((record_sameExcept t.step t.output t.before).mono ?_).trans (ih.mono ?_)
    · exact List.cons_subset_cons _ (List.subset_append_left _ _)
    · exact List.cons_subset_cons _ (List.subset_append_right _ _)

/-- The turns before one of them lead to the state that it starts in. -/
theorem Turns.before {t : Turn} (h : Turns k state (first ++ t :: rest) last) : Turns k state first t.before := by
  induction first generalizing state with
  | nil =>
    cases h
    exact .nil _
  | cons s first ih =>
    cases h with
    | cons found passes hrest => exact .cons found passes (ih hrest)

/-- The outputs that the turns added to results. -/
def added (turns : List Turn) : List String := (turns.filter (·.step.appendTo.isSome)).map (·.output)

theorem added_cons (t : Turn) (turns : List Turn) :
    added (t :: turns) = if t.step.appendTo.isSome then t.output :: added turns else added turns := by
  rw [added, List.filter_cons, added]
  split <;> rfl

/-- How a step fails: its function is not there, and nothing is asked for, or the function fails; either way the
failure says which step it was. -/
inductive StepFails (k : Kernel) (index : Nat) (step : PlanStep) (before : Variables) :
    List (Exchange Errands) → Failure → Prop where
  | missing {e : KernelError} (absent : k.registry.get step.plugin step.function = .error e) :
      StepFails k index step before [] ((e : Failure).within (cannotRun index))
  | failed {f : Function} {passed : Variables} {cause : Failure}
      (found : k.registry.get step.plugin step.function = .ok f) (passes : Passes step before passed) :
      StepFails k index step before [⟨.call f passed, .error cause⟩] (cause.within (stepFailed index step))

/-- A step that goes through is a turn. -/
theorem runStep_ok {output : String} (h : Ends (runStep k index step state) log (.ok output)) :
    ∃ t : Turn, t.step = step ∧ t.before = state ∧ t.output = output ∧ log = [t.exchange] ∧
      k.registry.get step.plugin step.function = .ok t.function ∧ Passes step state t.passed := by
  rcases runStep_cases h with ⟨_, -, -, he⟩ | ⟨f, answer, hget, rfl, hanswer⟩
  · cases he
  cases answer with
  | error cause => cases hanswer
  | ok answer =>
    simp only [Except.mapError, Except.map, Except.ok.injEq] at hanswer
    exact ⟨⟨step, state, f, argumentsFor step state, answer⟩, rfl, rfl, hanswer.symm, rfl, hget,
      passes_argumentsFor step state⟩

theorem runStep_error {e : Failure} (h : Ends (runStep k index step state) log (.error e)) :
    StepFails k index step state log e := by
  rcases runStep_cases h with ⟨cause, hget, rfl, hout⟩ | ⟨f, answer, hget, rfl, hanswer⟩
  · obtain rfl := Except.error.inj hout
    exact .missing hget
  cases answer with
  | ok answer => cases hanswer
  | error cause =>
    obtain rfl := Except.error.inj hanswer
    exact .failed hget (passes_argumentsFor step state)

/-- **Steps that all go through** are turns in a row, and their calls are all that is asked for. -/
theorem runSteps_ok_turns {steps : List PlanStep} {outputs : List String}
    (h : Ends (runSteps k index steps state) log (.ok (last, outputs))) :
    ∃ turns, Turns k state turns last ∧ turns.map (·.step) = steps ∧ log = turns.map (·.exchange) ∧
      outputs = added turns := by
  induction steps generalizing index state log last outputs with
  | nil =>
    obtain ⟨rfl, hout⟩ := ends_pure.mp h
    obtain ⟨rfl, rfl⟩ := Prod.mk.inj (Except.ok.inj hout)
    exact ⟨[], .nil _, rfl, rfl, rfl⟩
  | cons step steps ih =>
    rcases runSteps_cons_cases h with ⟨_, -, he⟩ | ⟨called, output, later, rest, hstep, hrest, rfl, hout⟩
    · cases he
    cases rest with
    | error e => cases hout
    | ok ended =>
      obtain ⟨rfl, rfl⟩ := Prod.mk.inj (Except.ok.inj hout)
      obtain ⟨t, rfl, rfl, rfl, rfl, found, passes⟩ := runStep_ok hstep
      obtain ⟨turns, hturns, rfl, rfl, hadded⟩ := ih hrest
      exact ⟨t :: turns, .cons found passes hturns, rfl, rfl, by rw [added_cons, hadded]⟩

/-- **Steps that do not all go through** are turns in a row up to the first that fails; what is asked for are the
calls of these turns, and of the step that fails if there was one. -/
theorem runSteps_error_turns {steps : List PlanStep} {e : Failure}
    (h : Ends (runSteps k index steps state) log (.error e)) :
    ∃ turns step rest before asked, steps = turns.map (·.step) ++ step :: rest ∧
      Turns k state turns before ∧ StepFails k (index + turns.length) step before asked e ∧
      log = turns.map (·.exchange) ++ asked := by
  induction steps generalizing index state log with
  | nil =>
    obtain ⟨-, hout⟩ := ends_pure.mp h
    cases hout
  | cons step steps ih =>
    rcases runSteps_cons_cases h with ⟨e', hstep, he⟩ | ⟨called, output, later, rest, hstep, hrest, rfl, hout⟩
    · obtain rfl := Except.error.inj he
      exact ⟨[], step, steps, state, log, rfl, .nil _, runStep_error hstep, rfl⟩
    cases rest with
    | ok ended => cases hout
    | error e' =>
      obtain rfl := Except.error.inj hout
      obtain ⟨t, rfl, rfl, rfl, rfl, found, passes⟩ := runStep_ok hstep
      obtain ⟨turns, failing, rest, before, asked, rfl, hturns, hfails, rfl⟩ := ih hrest
      -- the other steps are counted from one more, and there is one turn more before the one that fails
      refine ⟨t :: turns, failing, rest, before, asked, rfl, .cons found passes hturns, ?_, rfl⟩
      rwa [List.length_cons, Nat.add_comm turns.length, ← Nat.add_assoc]

/-- **Turns in a row are a run**, with the answers that they were given. -/
theorem Turns.ends_runSteps (h : Turns k state turns last) (index : Nat) :
    Ends (runSteps k index (turns.map (·.step)) state) (turns.map (·.exchange)) (.ok (last, added turns)) := by
  induction h generalizing index with
  | nil => exact ends_pure.mpr ⟨rfl, rfl⟩
  | @cons t turns last found passes _ ih =>
    have hstep : Ends (runStep k index t.step t.before) [t.exchange] (.ok t.output) := by
      rw [runStep, found]
      refine Task.ends_ok_bind.mpr (Task.ends_mapError_bind.mpr (.inr ⟨[t.exchange], t.answer, [], ?_, ?_, rfl⟩))
      · refine Task.ends_call.mpr ?_
        rw [Turn.exchange, passes.eq_argumentsFor]
      · exact ends_pure.mpr ⟨rfl, rfl⟩
    rw [List.map_cons, List.map_cons, runSteps]
    refine ends_bind.mpr (.inr ⟨_, _, _, hstep, ?_, rfl⟩)
    exact ends_bind.mpr (.inr ⟨_, _, [], ih (index + 1), ends_pure.mpr ⟨rfl, by rw [added_cons]⟩,
      (List.append_nil _).symm⟩)

/-! ### Runs as a whole -/

/-- **A run that succeeds** takes the steps of its plan in turns and then closes the state that the last one
left. -/
theorem run_ok_iff {p : Plan} {initial : Variables} {o : PlanOutcome} :
    Ends (p.run k initial) log (.ok o) ↔ ∃ turns last, turns.map (·.step) = p.steps ∧
      log = turns.map (·.exchange) ∧ Turns k initial turns last ∧ o = finish last (added turns) := by
  rw [run]
  constructor
  · intro h
    rcases ends_bind.mp h with ⟨_, -, he⟩ | ⟨first, ⟨last, outputs⟩, later, hsteps, hpure, rfl⟩
    · cases he
    obtain ⟨rfl, hout⟩ := ends_pure.mp hpure
    obtain rfl := Except.ok.inj hout
    obtain ⟨turns, hturns, hplan, rfl, rfl⟩ := runSteps_ok_turns hsteps
    exact ⟨turns, last, hplan, List.append_nil _, hturns, rfl⟩
  · rintro ⟨turns, last, hsteps, rfl, hturns, rfl⟩
    rw [← hsteps]
    exact ends_bind.mpr (.inr ⟨_, _, [], hturns.ends_runSteps 1, ends_pure.mpr ⟨rfl, rfl⟩,
      (List.append_nil _).symm⟩)

/-- **What holds of a run that succeeds.** -/
structure Completed (k : Kernel) (p : Plan) (initial : Variables) (log : List (Exchange Errands))
    (turns : List Turn) (o : PlanOutcome) : Prop where
  /-- there is a turn for every step, in the order of the plan -/
  steps : turns.map (·.step) = p.steps
  /-- each of them calls one function once, and nothing else is asked for -/
  calls : log = turns.map (·.exchange)
  /-- the function is the one that the step names, and it is called with the arguments of the step, each
  expanded in the state before it -/
  found : ∀ t ∈ turns,
    k.registry.get t.step.plugin t.step.function = .ok t.function ∧ Passes t.step t.before t.passed
  /-- the turns are in a row -/
  inRow : ∃ last, Turns k initial turns last ∧ o = finish last (added turns)
  /-- before a turn nothing has changed but the running input and what the steps until then name -/
  before : ∀ first t rest, turns = first ++ t :: rest →
    SameExcept (inputName :: (first.map (·.step)).flatMap written) initial t.before
  /-- at the end nothing has changed but the input, the collected result and what the steps name -/
  kept : SameExcept (inputName :: resultName :: p.steps.flatMap written) initial o.state

/-- **What holds of a run that fails**: it is for the first step whose function is not there or fails. -/
structure Stopped (k : Kernel) (p : Plan) (initial : Variables) (log : List (Exchange Errands))
    (turns : List Turn) (failing : PlanStep) (before : Variables) (e : Failure) : Prop where
  /-- there is a turn for every step before that one -/
  steps : ∃ rest, p.steps = turns.map (·.step) ++ failing :: rest
  /-- the turns are in a row -/
  inRow : Turns k initial turns before
  /-- the failure tells the number of the step, counted from one, and after the call of its function, if there was
  one, nothing more is asked for -/
  calls : ∃ asked, StepFails k (turns.length + 1) failing before asked e ∧
    log = turns.map (·.exchange) ++ asked

theorem exists_completed {p : Plan} {initial : Variables} {o : PlanOutcome}
    (h : Ends (p.run k initial) log (.ok o)) : ∃ turns, Completed k p initial log turns o := by
  obtain ⟨turns, last, hsteps, rfl, hturns, rfl⟩ := run_ok_iff.mp h
  refine ⟨turns, hsteps, rfl, fun t ht => hturns.found ht, ⟨last, hturns, rfl⟩, ?_, ?_⟩
  · rintro first t rest rfl
    exact hturns.before.sameExcept
  · have hlast := hturns.sameExcept
    rw [hsteps] at hlast
    refine (hlast.mono ?_).trans ((finish_sameExcept last _).mono ?_)
    · exact List.cons_subset_cons _ (List.subset_cons_self _ _)
    · exact List.cons_subset.mpr ⟨List.mem_cons_of_mem _ List.mem_cons_self, List.nil_subset _⟩

theorem exists_stopped {p : Plan} {initial : Variables} {e : Failure}
    (h : Ends (p.run k initial) log (.error e)) :
    ∃ turns failing before, Stopped k p initial log turns failing before e := by
  rw [run] at h
  rcases ends_bind.mp h with ⟨e', hsteps, he⟩ | ⟨_, _, _, _, hpure, _⟩
  · obtain rfl := Except.error.inj he
    obtain ⟨turns, failing, rest, before, asked, hplan, hturns, hfails, hlog⟩ :=
      runSteps_error_turns hsteps
    rw [Nat.add_comm] at hfails
    exact ⟨turns, failing, before, ⟨rest, hplan⟩, hturns, asked, hfails, hlog⟩
  · obtain ⟨-, hout⟩ := ends_pure.mp hpure
    cases hout

/-- **A run of a plan** takes its steps in turns, to the end or to the first that fails, and touches no variable
that no step of it names. -/
theorem run_inTurns (k : Kernel) (p : Plan) (initial : Variables) (log : List (Exchange Errands))
    (outcome : Except Failure PlanOutcome) (h : Ends (p.run k initial) log outcome) :
    match outcome with
    | .ok o => ∃ turns, Completed k p initial log turns o
    | .error e => ∃ turns failing before, Stopped k p initial log turns failing before e := by
  cases outcome with
  | ok o => exact exists_completed h
  | error e => exact exists_stopped h

/-- A kernel of two functions, one of them in a plugin. -/
def relays : Kernel := .assembled [.register "text" (.echo "Upper"), .register "" (.echo "join")]

/-- A turn with an argument that goes by the name of a variable. -/
def shouting : Turn :=
  let before := Variables.ofList [("input", "in"), ("city", "London"), ("name", "ada")]
  let step : PlanStep :=
    ⟨"TEXT", "upper", .ofList [("CITY", "$name"), ("input", "$city")], ["Shouted"], none⟩
  ⟨step, before, (Function.echo "Upper").inPlugin "text", argumentsFor step before, " LONDON\n"⟩

/-- The turn after it, which refers to the variable: the argument is gone by then. -/
def joining : Turn :=
  let before := shouting.after
  let step : PlanStep :=
    ⟨globalPlugin, "join", .ofList [("input", "$shouted of $city")], [], some "RESULT__A"⟩
  ⟨step, before, (Function.echo "join").inPlugin globalPlugin, argumentsFor step before, "LONDON of London"⟩

theorem run_inTurns_relayed :
    let p : Plan := { goal := "relay", steps := [shouting.step, joining.step], outputs := ["RESULT__A"] }
    let log := [shouting.exchange, joining.exchange]
    joining.passed.input = "LONDON of London" ∧
      ∃ o, Ends (p.run relays shouting.before) log (.ok o) ∧
        ∃ turns, Completed relays p shouting.before log turns o := by
  intro p log
  have hturns : Turns relays shouting.before [shouting, joining] joining.after :=
    .cons rfl (passes_argumentsFor _ _) (.cons (t := joining) rfl (passes_argumentsFor _ _) (.nil _))
  have hends : Ends (p.run relays shouting.before) log (.ok (finish _ (added [shouting, joining]))) :=
    run_ok_iff.mpr ⟨_, _, rfl, rfl, hturns, rfl⟩
  exact ⟨by decide +kernel, _, hends, run_inTurns relays p shouting.before log _ hends⟩

end Plan

end Orchestration
