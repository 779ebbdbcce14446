import Orchestration.Proofs.PlanTurns

/-!
# The input of a step

A step may give its function an input among its arguments; if it does not, the function gets the running input.
Variables go by any spelling of their names, but the argument counts as the input in its plain spelling only: in any
other it is set, and the running input is set over it.

* `Plan.InputAsNamed` — the input that a step asks for if the argument counts in any spelling.
* `Plan.InputPlainly` — when the input is that one, and when another spelling makes no difference.
* `Plan.run_inputPlainly` — what is said there holds of every call of every run.
* `Plan.run_drops_input` — an argument that is spelled `INPUT` is lost.
-/

namespace Orchestration

open Text

/-- An entry that does not pass a filter leaves what does as it was. -/
theorem filter_insertEntry {α : Type} {p : String × α → Bool} {name : String}
    (h : ∀ value, p (name, value) = false) (value : α) (entries : List (String × α)) :
    (insertEntry name value entries).filter p = entries.filter p := by
  induction entries with
  | nil => simp [insertEntry, h]
  | cons e entries ih =>
    obtain ⟨first, held⟩ := e
    rw [insertEntry]
    split
    · exact List.filter_cons_of_neg (by simp [h])
    · split
      · next hsame =>
        subst hsame
        rw [List.filter_cons_of_neg (by simp [h]), List.filter_cons_of_neg (by simp [h])]
      · rw [List.filter_cons, List.filter_cons, ih]

namespace Plan

open Variables

variable {k : Kernel} {log : List (Exchange Errands)} {step base : PlanStep} {before passed : Variables}

/-! ### What a step asks for -/

/-- The argument goes by the name of the input, in whatever spelling, and is not empty. -/
def GivesInput (step : PlanStep) (name value : String) : Prop :=
  step.parameters.get? name = some value ∧ lower name = lower inputName ∧ value ≠ ""

/-- **The input that a step asks for** by the names of its arguments. -/
inductive InputAsNamed (step : PlanStep) (before : Variables) : String → Prop where
  /-- an argument of that name, expanded in the state before the step -/
  | given {name value : String} (argument : GivesInput step name value) :
      InputAsNamed step before (expand value before)
  /-- without such an argument the running input -/
  | running (missing : ∀ name value, ¬GivesInput step name value) : InputAsNamed step before before.input

theorem inputAsNamed_iff {input : String} : InputAsNamed step before input ↔
    (∃ name value, GivesInput step name value ∧ input = expand value before) ∨
      (∀ name value, ¬GivesInput step name value) ∧ input = before.input := by
  constructor
  · rintro (⟨argument⟩ | ⟨missing⟩)
    · exact .inl ⟨_, _, argument, rfl⟩
    · exact .inr ⟨missing, rfl⟩
  · rintro (⟨name, value, argument, rfl⟩ | ⟨missing, rfl⟩)
    · exact .given argument
    · exact .running missing

/-! ### What its function gets -/

/-- The argument in the plain spelling is the input. -/
theorem Passes.input_of_given (h : Passes step before passed) {value : String}
    (hvalue : GivesInput step inputName value) : passed.input = expand value before := by
  obtain ⟨hget, -, hne⟩ := hvalue
  have hfilter : (step.parameters.get? inputName).filter (!·.isEmpty) = some value := by
    rw [hget, Option.filter_some, if_pos (by simpa using hne)]
  rw [Variables.input, h.input, hfilter]
  rfl

/-- Without it the running input is, whatever the other arguments. -/
theorem Passes.input_of_missing (h : Passes step before passed)
    (hmissing : ∀ value, ¬GivesInput step inputName value) : passed.input = before.input := by
  have hfilter : (step.parameters.get? inputName).filter (!·.isEmpty) = none := by
    refine Option.filter_eq_none_iff.mpr fun value hget htext => hmissing value ⟨hget, rfl, ?_⟩
    simpa using htext
  rw [Variables.input, h.input, hfilter]
  rfl

/-- An argument that goes by another key is not found under this one. -/
theorem argument?_withParameter {name key : String} (h : lower name ≠ key) (value : String) (step : PlanStep) :
    argument? (step.withParameter name value) key = argument? step key := by
  have hfilter : ((step.withParameter name value).parameters.entries.filter fun p => lower p.1 = key) =
      step.parameters.entries.filter fun p => lower p.1 = key :=
    filter_insertEntry (by simpa using h) value step.parameters.entries
  rw [argument?, argument?, ← List.head?_filter, ← List.head?_filter, List.filter_reverse,
    List.filter_reverse, hfilter]

/-- **Which spelling counts** in a call of the function of a step. -/
structure InputPlainly (step : PlanStep) (before passed : Variables) : Prop where
  /-- the input is what the step asks for exactly if it gives it in the plain spelling, or gives none, or asks for
  the running input anyway -/
  asNamed_iff : InputAsNamed step before passed.input ↔
    (∃ value, GivesInput step inputName value) ∨ (∀ name value, ¬GivesInput step name value) ∨
      ∃ name value, GivesInput step name value ∧ expand value before = before.input
  /-- an argument in another spelling does what it does in the plain one exactly if it is empty, or what it asks
  for is the running input anyway -/
  respelled_iff : ∀ (base : PlanStep) (spelling value : String), step = base.withParameter spelling value →
    lower spelling = lower inputName →
      (∀ name, lower name = lower inputName → base.parameters.get? name = none) →
        (passed = argumentsFor (base.withParameter inputName value) before ↔
          spelling = inputName ∨ value = "" ∨ expand value before = before.input)

theorem Passes.asNamed_iff (h : Passes step before passed) : InputAsNamed step before passed.input ↔
    (∃ value, GivesInput step inputName value) ∨ (∀ name value, ¬GivesInput step name value) ∨
      ∃ name value, GivesInput step name value ∧ expand value before = before.input := by
  by_cases hplain : ∃ value, GivesInput step inputName value
  · obtain ⟨value, hvalue⟩ := hplain
    rw [h.input_of_given hvalue]
    exact ⟨fun _ => .inl ⟨value, hvalue⟩, fun _ => .given hvalue⟩
  · rw [h.input_of_missing (not_exists.mp hplain), inputAsNamed_iff, or_iff_right hplain]
    constructor
    · rintro (⟨name, value, argument, hsame⟩ | ⟨missing, -⟩)
      · exact .inr ⟨name, value, argument, hsame.symm⟩
      · exact .inl missing
    · rintro (missing | ⟨name, value, argument, hsame⟩)
      · exact .inr ⟨missing, rfl⟩
      · exact .inl ⟨name, value, argument, hsame.symm⟩

theorem Passes.get?_input (h : Passes step before passed) : passed.get? inputName = some passed.input := by
  rw [Variables.input, h.input, Option.getD_some]

/-- In the plain spelling an argument is the input, if it is not empty. -/
theorem Passes.input_withParameter {value : String} (h : Passes (base.withParameter inputName value) before passed) :
    passed.input = if value = "" then before.input else expand value before := by
  have hget : (base.withParameter inputName value).parameters.get? inputName = some value :=
    Dictionary.get?_insert_self ..
  split
  · next hempty =>
    refine h.input_of_missing ?_
    rintro other ⟨hother, -, hne⟩
    rw [hget] at hother
    exact hne ((Option.some.inj hother).symm.trans hempty)
  · next hne => exact h.input_of_given ⟨hget, rfl, hne⟩

/-- In another spelling it is not. -/
theorem Passes.input_respelled {spelling value : String}
    (h : Passes (base.withParameter spelling value) before passed) (hspelling : spelling ≠ inputName)
    (hbase : base.parameters.get? inputName = none) : passed.input = before.input := by
  refine h.input_of_missing ?_
  rintro other ⟨hget, -, -⟩
  have hnone : (base.withParameter spelling value).parameters.get? inputName = none :=
    (Dictionary.get?_insert_ne _ _ hspelling.symm).trans hbase
  rw [hnone] at hget
  cases hget

/-- The spelling makes no difference to anything but the input. -/
theorem Passes.eq_argumentsFor_iff {spelling value : String}
    (h : Passes (base.withParameter spelling value) before passed) (hspelling : lower spelling = lower inputName) :
    passed = argumentsFor (base.withParameter inputName value) before ↔
      passed.input = (argumentsFor (base.withParameter inputName value) before).input := by
  have hplain := passes_argumentsFor (base.withParameter inputName value) before
  refine ⟨fun hsame => by rw [hsame], fun hinput => Passes.eq_argumentsFor ⟨?_, fun key hkey => ?_⟩⟩
  · rw [← hplain.input, h.get?_input, hplain.get?_input, hinput]
  · have hother : lower inputName ≠ key := by rwa [lower_inputName, ne_comm]
    rw [h.others key hkey, argument?_withParameter hother, argument?_withParameter (by rwa [hspelling])]

theorem Passes.respelled_iff {spelling value : String}
    (h : Passes (base.withParameter spelling value) before passed) (hspelling : lower spelling = lower inputName)
    (hbase : ∀ name, lower name = lower inputName → base.parameters.get? name = none) :
    passed = argumentsFor (base.withParameter inputName value) before ↔
      spelling = inputName ∨ value = "" ∨ expand value before = before.input := by
  by_cases hplain : spelling = inputName
  · subst hplain
    exact ⟨fun _ => .inl rfl, fun _ => h.eq_argumentsFor⟩
  rw [h.eq_argumentsFor_iff hspelling, h.input_respelled hplain (hbase inputName rfl),
    (passes_argumentsFor _ before).input_withParameter, or_iff_right hplain]
  split
  · next hempty => exact ⟨fun _ => .inl hempty, fun _ => rfl⟩
  · next hne => rw [eq_comm, or_iff_right hne]

theorem Passes.inputPlainly (h : Passes step before passed) : InputPlainly step before passed where
  asNamed_iff := h.asNamed_iff
  respelled_iff := by
    rintro base spelling value rfl
    exact h.respelled_iff

/-! ### Calls of a run -/

/-- The turn of a number starts in the state that the turns before it have left. -/
theorem Turns.before_getElem {initial last : Variables} {turns : List Turn} (h : Turns k initial turns last) {n : Nat}
    (hn : n < turns.length) : Turns k initial (turns.take n) turns[n].before := by
  have hsplit : turns = turns.take n ++ turns[n] :: turns.drop (n + 1) := by
    rw [List.getElem_cons_drop, List.take_append_drop]
  rw [hsplit] at h
  exact h.before

/-- **A call of a run** is the one of the step of its number, in the state that the steps before it have left. -/
structure Called (k : Kernel) (p : Plan) (initial : Variables) (log : List (Exchange Errands)) (n : Nat)
    (step : PlanStep) (before passed : Variables) : Prop where
  /-- the step is that of the number -/
  numbered : p.steps[n]? = some step
  /-- the steps before it were taken in turns, and the state is what they left -/
  inTurn : ∃ turns, turns.map (·.step) = p.steps.take n ∧ turns.map (·.exchange) = log.take n ∧
    Turns k initial turns before
  /-- the function of the step is called, with its arguments -/
  call : ∃ f x, k.registry.get step.plugin step.function = .ok f ∧ log[n]? = some x ∧ x.request = .call f passed
  passes : Passes step before passed

theorem Turns.called {p : Plan} {initial last : Variables} {turns : List Turn} {rest : List PlanStep}
    {more : List (Exchange Errands)} (h : Turns k initial turns last) (hsteps : p.steps = turns.map (·.step) ++ rest)
    (hlog : log = turns.map (·.exchange) ++ more) {n : Nat} (hn : n < turns.length) :
    Called k p initial log n turns[n].step turns[n].before turns[n].passed := by
  obtain ⟨found, passes⟩ := h.found (List.getElem_mem hn)
  have hexchange : log[n]? = some turns[n].exchange := by
    rw [hlog, List.getElem?_append_left (by simpa using hn), List.getElem?_map, List.getElem?_eq_getElem hn,
      Option.map_some]
  refine ⟨?_, ⟨turns.take n, ?_, ?_, h.before_getElem hn⟩, ⟨_, _, found, hexchange, rfl⟩, passes⟩
  · rw [hsteps, List.getElem?_append_left (by simpa using hn), List.getElem?_map, List.getElem?_eq_getElem hn,
      Option.map_some]
  · rw [hsteps, List.take_append_of_le_length (by simpa using Nat.le_of_lt hn), List.map_take]
  · rw [hlog, List.take_append_of_le_length (by simpa using Nat.le_of_lt hn), List.map_take]

/-- Whatever a run asks for is such a call. -/
theorem exists_called {p : Plan} {initial : Variables} {outcome : Except Failure PlanOutcome}
    (h : Ends (p.run k initial) log outcome) {n : Nat} (hn : n < log.length) :
    ∃ step before passed, Called k p initial log n step before passed := by
  cases outcome with
  | ok o =>
    obtain ⟨turns, hcompleted⟩ := exists_completed h
    obtain ⟨last, hturns, -⟩ := hcompleted.inRow
    have hlog : log = turns.map (·.exchange) ++ [] := by rw [hcompleted.calls, List.append_nil]
    have hsteps : p.steps = turns.map (·.step) ++ [] := by rw [hcompleted.steps, List.append_nil]
    have hn' : n < turns.length := by simpa [hlog] using hn
    exact ⟨_, _, _, hturns.called hsteps hlog hn'⟩
  | error e =>
    obtain ⟨turns, failing, before, hstopped⟩ := exists_stopped h
    obtain ⟨rest, hsteps⟩ := hstopped.steps
    obtain ⟨asked, hfails, hlog⟩ := hstopped.calls
    by_cases hn' : n < turns.length
    · exact ⟨_, _, _, hstopped.inRow.called hsteps hlog hn'⟩
    · -- behind the turns only the call of the step that fails is left
      cases hfails with
      | missing absent => simp [hlog] at hn; omega
      | @failed f passed cause found passes =>
        obtain rfl : n = turns.length := by simp [hlog] at hn; omega
        refine ⟨failing, before, passed, ?_, ⟨turns, ?_, ?_, hstopped.inRow⟩,
          ⟨f, ⟨.call f passed, .error cause⟩, found, ?_, rfl⟩, passes⟩
        · rw [hsteps, List.getElem?_append_right (by simp)]
          simp
        · rw [hsteps, List.take_left' (by simp)]
        · rw [hlog, List.take_left' (by simp)]
        · rw [hlog, List.getElem?_append_right (by simp)]
          simp

/-- **Every call of a run** takes its input from the argument in the plain spelling, and in no other. -/
theorem run_inputPlainly (k : Kernel) (p : Plan) (initial : Variables) (log : List (Exchange Errands))
    (outcome : Except Failure PlanOutcome) (h : Ends (p.run k initial) log outcome) (n : Nat) (hn : n < log.length) :
    ∃ step before passed, Called k p initial log n step before passed ∧ InputPlainly step before passed := by
  obtain ⟨step, before, passed, hcalled⟩ := exists_called h hn
  exact ⟨step, before, passed, hcalled, hcalled.passes.inputPlainly⟩

/-! ### An argument that is lost -/

/-- A turn of a step that gives its input in capitals. -/
def capitalized : Turn :=
  let before := Variables.ofInput "running"
  let step : PlanStep := ⟨"text", "Upper", .ofList [("INPUT", "said")], [], none⟩
  ⟨step, before, (Function.echo "Upper").inPlugin "text", argumentsFor step before, "running"⟩

theorem turns_capitalized : Turns relays capitalized.before [capitalized] capitalized.after :=
  .cons rfl (passes_argumentsFor _ _) (.nil _)

theorem ends_run_capitalized :
    Ends (run relays { goal := "say", steps := [capitalized.step] } capitalized.before) [capitalized.exchange]
      (.ok (finish capitalized.after [])) :=
  run_ok_iff.mpr ⟨_, _, rfl, rfl, turns_capitalized, rfl⟩

/-- **An argument that is spelled `INPUT` is lost**: the function is called with the running input. -/
theorem run_drops_input :
    ¬∀ k p initial log outcome n step before passed, Ends (run k p initial) log outcome →
      Called k p initial log n step before passed → InputAsNamed step before passed.input := by
  intro law
  have hcalled : Called relays { goal := "say", steps := [capitalized.step] } capitalized.before
      [capitalized.exchange] 0 capitalized.step capitalized.before capitalized.passed :=
    turns_capitalized.called (List.append_nil _).symm (List.append_nil _).symm Nat.zero_lt_one
  have hinput := law _ _ _ _ _ _ _ _ _ ends_run_capitalized hcalled
  obtain ⟨name, value, argument, hsame⟩ | ⟨missing, -⟩ := inputAsNamed_iff.mp hinput
  · -- the only argument is `said`
    have hentry : (name, value) ∈ [("INPUT", "said")] := Dictionary.mem_entries_iff.mpr argument.1
    obtain ⟨rfl, rfl⟩ := Prod.mk.inj (List.mem_singleton.mp hentry)
    exact absurd hsame (by decide +kernel)
  · exact missing "INPUT" "said" ⟨rfl, by decide, by decide⟩

theorem run_inputPlainly_capitalized :
    let p : Plan := { goal := "say", steps := [capitalized.step] }
    let log := [capitalized.exchange]
    let o := finish capitalized.after []
    Ends (p.run relays capitalized.before) log (.ok o) ∧ 0 < log.length ∧
      ∃ step before passed, Called relays p capitalized.before log 0 step before passed ∧
        InputPlainly step before passed := by
  intro p log o
  have hlog : 0 < log.length := Nat.zero_lt_one
  exact ⟨ends_run_capitalized, hlog,
    run_inputPlainly relays p capitalized.before log (.ok o) ends_run_capitalized 0 hlog⟩

end Plan

end Orchestration
