import Orchestration.Proofs.EmbeddedDocuments
import Orchestration.Proofs.StepInput

/-!
# The input of an answer

Next to its subtasks an answer may give an input. The first subtask works on it unless it has an input of its own; the
other subtasks never see it. An argument counts as an input of its own in the plain spelling of the name only, while
the function that is called takes its variables in any spelling.

* `Planner.Subtask.GivesInput`, `Planner.Subtask.GivesNoInput` — what a subtask says of its input, in any spelling.
* `Planner.TakesInput` — what becomes of the input of the answer in the first step.
* `Planner.StartsOn` — the input that the first function of a run is called with.
* `Planner.readSubtasks_placesInput` — every answer with subtasks is read so, or names a function that is not there.
* `Planner.readSubtasks_overrides` — the input of the answer is set over one that is spelled `Input`.
-/

namespace Orchestration

namespace Planner

open Text Variables

variable {k : Kernel} {top : String} {t first : Subtask} {rest : List Subtask} {step : PlanStep} {plan : Plan}

/-! ### Arguments -/

/-- An argument is found as the text that it has, and not at all if it has none. -/
theorem get?_argumentTexts (arguments : Dictionary Json) (name : String) :
    (argumentTexts arguments).get? name = (arguments.get? name).bind argumentText? := by
  have hnames : (((arguments.entries.filterMap fun e => (argumentText? e.2).map (e.1, ·))).map Prod.fst).Nodup := by
    refine arguments.nodup_names.sublist ?_
    induction arguments.entries with
    | nil => exact .slnil
    | cons e entries ih =>
      cases htext : argumentText? e.2 with
      | none => simpa [htext] using ih.cons e.1
      | some text => simpa [htext] using ih.cons_cons e.1
  refine Option.ext fun text => ?_
  rw [argumentTexts, Dictionary.ofList, Dictionary.get?_foldl_insert hnames, Dictionary.get?_empty, Option.or_none,
    lookupEntry_eq_some_iff hnames, Option.bind_eq_some_iff]
  simp [Dictionary.mem_entries_iff]

namespace Subtask

/-- The subtask gives itself an input: an argument of that name, in whatever spelling, with a text that is not empty. -/
def GivesInput (t : Subtask) : Prop :=
  ∃ name value text, t.arguments.get? name = some value ∧ lower name = lower inputName ∧
    argumentText? value = some text ∧ text ≠ ""

/-- The subtask gives itself no input: an argument of that name, in whatever spelling, is `null` if it is there. -/
def GivesNoInput (t : Subtask) : Prop :=
  ∀ name value, t.arguments.get? name = some value → lower name = lower inputName → value = .null

/-- The text of the argument of that name in the plain spelling, if it has one. -/
def plainInput? (t : Subtask) : Option String := (t.arguments.get? inputName).bind argumentText?

theorem GivesNoInput.plainInput? (h : t.GivesNoInput) : t.plainInput? = none := by
  rw [Subtask.plainInput?]
  cases hvalue : t.arguments.get? inputName with
  | none => rfl
  | some value =>
    rw [h inputName value hvalue rfl]
    rfl

end Subtask

/-! ### Steps -/

/-- The step is the call that the subtask describes, and nothing is added to its arguments. -/
def IsCallOf (k : Kernel) (t : Subtask) (step : PlanStep) : Prop :=
  ∃ f, k.registry.find (trim t.function) = .ok f ∧ step = callOf f.view t.arguments

theorem stepOfSubtask_eq_ok_iff : stepOfSubtask k t = .ok step ↔ IsCallOf k t step := by
  rw [IsCallOf]
  rcases stepOfSubtask_cases k t with ⟨f, hfound, hstep⟩ | ⟨⟨e, habsent⟩, herror⟩
  · simp [hstep, hfound, eq_comm]
  · simp [herror, habsent]

/-- Only a function that is not there keeps a subtask from becoming a step. -/
theorem stepOfSubtask_eq_error {e : PlanningError} (h : stepOfSubtask k t = .error e) :
    (∃ cause, k.registry.find (trim t.function) = .error cause) ∧ e = .functionNotFound t.function := by
  rcases stepOfSubtask_cases k t with ⟨f, -, hstep⟩ | ⟨habsent, herror⟩
  · cases hstep.symm.trans h
  · exact ⟨habsent, (Except.error.inj (herror.symm.trans h)).symm⟩

theorem IsCallOf.get?_parameters (h : IsCallOf k t step) (name : String) :
    step.parameters.get? name = (t.arguments.get? name).bind argumentText? := by
  obtain ⟨f, -, rfl⟩ := h
  exact get?_argumentTexts t.arguments name

theorem IsCallOf.get?_inputName (h : IsCallOf k t step) : step.parameters.get? inputName = t.plainInput? :=
  h.get?_parameters inputName

/-- The input of an answer is added where there is one and no argument of the name in its plain spelling. -/
theorem IsCallOf.withTopInput_eq (h : IsCallOf k t step) (top : String) :
    withTopInput top step =
      if top = "" ∨ t.plainInput? ≠ none then step else step.withParameter inputName top := by
  rw [withTopInput, Dictionary.contains, h.get?_inputName]
  refine if_congr ?_ rfl rfl
  rw [Bool.or_eq_true, String.isEmpty_iff, Option.isSome_iff_ne_none, or_comm]

/-- **What becomes of the input of an answer** in the step of its first subtask. -/
structure TakesInput (k : Kernel) (top : String) (t : Subtask) (step : PlanStep) : Prop where
  /-- it is left out exactly if there is none or the subtask has an input argument in the plain spelling -/
  leftOut_iff : IsCallOf k t step ↔ top = "" ∨ t.plainInput? ≠ none
  /-- a subtask that gives itself no input gets it as it is -/
  taken : t.GivesNoInput → top ≠ "" → step.parameters.get? inputName = some top
  /-- all else of the call is as the subtask describes it -/
  others : ∃ plain, IsCallOf k t plain ∧ step.plugin = plain.plugin ∧ step.function = plain.function ∧
    ∀ name, name ≠ inputName → step.parameters.get? name = plain.parameters.get? name

theorem IsCallOf.takesInput {plain : PlanStep} (h : IsCallOf k t plain) (top : String) :
    TakesInput k top t (withTopInput top plain) := by
  rw [h.withTopInput_eq]
  split
  · next hleft =>
    refine ⟨iff_of_true h hleft, fun hnone htop => ?_, plain, h, rfl, rfl, fun _ _ => rfl⟩
    exact absurd hleft (not_or.mpr ⟨htop, not_not.mpr hnone.plainInput?⟩)
  · next htaken =>
    refine ⟨iff_of_false (fun hsame => ?_) htaken, fun _ _ => Dictionary.get?_insert_self .., plain, h, rfl, rfl,
      fun name hname => Dictionary.get?_insert_ne _ _ hname⟩
    -- the call that the subtask describes has no argument of the name
    have hadded : (plain.withParameter inputName top).parameters.get? inputName = some top :=
      Dictionary.get?_insert_self ..
    refine htaken (.inr ?_)
    rw [← hsame.get?_inputName, hadded]
    exact Option.some_ne_none top

/-! ### The first call of a run -/

/-- **What the first function of a run is called with** as its input, by what the subtask and the answer give. -/
inductive StartsOn (top : String) (t : Subtask) (initial : Variables) : String → Prop where
  /-- the argument of the subtask in the plain spelling -/
  | own {text : String} (plain : t.plainInput? = some text) (nonempty : text ≠ "") : StartsOn top t initial (expand text initial)
  /-- without an argument in the plain spelling the input of the answer, whatever the other spellings -/
  | top (absent : t.plainInput? = none) (nonempty : top ≠ "") : StartsOn top t initial (expand top initial)
  /-- and without that the input that the run starts with; so too for an argument that is empty -/
  | running (nothing : t.plainInput? = some "" ∨ t.plainInput? = none ∧ top = "") :
      StartsOn top t initial initial.input

theorem IsCallOf.startsOn {plain : PlanStep} (h : IsCallOf k t plain) {initial passed : Variables}
    (hpasses : Plan.Passes (withTopInput top plain) initial passed) : StartsOn top t initial passed.input := by
  rw [h.withTopInput_eq] at hpasses
  split at hpasses
  · next hleft =>
    cases hown : t.plainInput? with
    | none =>
      have htop : top = "" := hleft.resolve_right (not_not.mpr hown)
      rw [hpasses.input_of_missing fun value hvalue => by simpa [h.get?_inputName, hown] using hvalue.1]
      exact .running (.inr ⟨hown, htop⟩)
    | some text =>
      by_cases hempty : text = ""
      · subst hempty
        rw [hpasses.input_of_missing ?_]
        · exact .running (.inl hown)
        · rintro value ⟨hvalue, -, hne⟩
          rw [h.get?_inputName, hown] at hvalue
          exact hne (Option.some.inj hvalue).symm
      · rw [hpasses.input_of_given ⟨h.get?_inputName.trans hown, rfl, hempty⟩]
        exact .own hown hempty
  · next htaken =>
    obtain ⟨htop, hown⟩ := not_or.mp htaken
    rw [hpasses.input_of_given ⟨Dictionary.get?_insert_self .., rfl, htop⟩]
    exact .top (not_not.mp hown) htop

/-- The first call of a run is that of the first step, in the state that the run starts with. -/
theorem exists_firstCall {initial : Variables} {log : List (Exchange Errands)} {outcome : Except Failure PlanOutcome}
    {steps : List PlanStep} (hsteps : plan.steps = step :: steps) (h : Ends (plan.run k initial) log outcome)
    (hlog : log ≠ []) : ∃ passed, Plan.Called k plan initial log 0 step initial passed := by
  obtain ⟨called, before, passed, hcalled⟩ := Plan.exists_called h (List.length_pos_iff.mpr hlog)
  have hstep : called = step := by simpa [hsteps, eq_comm] using hcalled.numbered
  obtain ⟨turns, hturns, -, hbefore⟩ := hcalled.inTurn
  obtain rfl : turns = [] := by simpa using hturns
  cases hbefore
  exact ⟨passed, hstep ▸ hcalled⟩

/-! ### Answers -/

/-- **What comes of subtasks and the input beside them.** -/
inductive InputPlaced (k : Kernel) (top : String) (first : Subtask) (rest : List Subtask) :
    Except PlanningError Plan → Prop where
  /-- the function of a subtask is not there, and there is no plan -/
  | missing {t : Subtask} (among : t ∈ first :: rest) (absent : ∃ e, k.registry.find (trim t.function) = .error e) :
      InputPlaced k top first rest (.error (.functionNotFound t.function))
  /-- the first step may take the input, the others are the calls that their subtasks describe, and this is what a
  run of the plan starts on -/
  | placed {plan : Plan} {step : PlanStep} {steps : List PlanStep} (parts : plan.steps = step :: steps)
      (start : TakesInput k top first step) (later : List.Forall₂ (IsCallOf k) rest steps)
      (run : ∀ initial log outcome, Ends (plan.run k initial) log outcome → log ≠ [] →
        ∃ passed, Plan.Called k plan initial log 0 step initial passed ∧ StartsOn top first initial passed.input) :
      InputPlaced k top first rest (.ok plan)

theorem inputPlaced_ofSteps {plain : PlanStep} {steps : List PlanStep} (hfirst : IsCallOf k first plain)
    (hrest : List.Forall₂ (IsCallOf k) rest steps) (goal top : String) :
    InputPlaced k top first rest (.ok (Plan.ofSteps goal (withTopInput top plain :: steps))) := by
  have hparts := Plan.ofSteps_steps goal (withTopInput top plain :: steps)
  refine .placed hparts (hfirst.takesInput top) hrest fun initial log outcome hends hlog => ?_
  obtain ⟨passed, hcalled⟩ := exists_firstCall hparts hends hlog
  exact ⟨passed, hcalled, hfirst.startsOn hcalled.passes⟩

/-- **The input of an answer goes to its first subtask**, and to no other. It is left out where that subtask has an
input argument in the plain spelling, but not for the sake of another spelling: then the function gets the input of
the answer. -/
theorem readSubtasks_placesInput (k : Kernel) (answer goal : String) {breakdown : Breakdown} {first : Subtask}
    {rest : List Subtask} (hread : readDocument Breakdown.decoder answer = .ok breakdown)
    (hsubtasks : breakdown.subtasks = first :: rest) :
    InputPlaced k breakdown.input first rest (readSubtasks answer goal k) := by
  rw [readSubtasks, hread]
  simp only [bind, Except.bind]
  rw [hsubtasks]
  obtain ⟨steps, hsteps, hall⟩ | ⟨before, t, later, e, hparts, -, ht, herror⟩ :=
    mapM_cases (stepOfSubtask k) (first :: rest)
  · obtain ⟨plain, later, hfirst, hrest, rfl⟩ := List.forall₂_cons_left_iff.mp hall
    rw [hsteps]
    exact inputPlaced_ofSteps (stepOfSubtask_eq_ok_iff.mp hfirst)
      (hrest.imp fun _ _ => stepOfSubtask_eq_ok_iff.mp) goal breakdown.input
  · obtain ⟨absent, rfl⟩ := stepOfSubtask_eq_error ht
    have hmem : t ∈ first :: rest := hparts ▸ List.mem_append_right before List.mem_cons_self
    rw [herror]
    exact .missing hmem absent

/-! ### An input that is overridden -/

/-- What an answer says: its input, and the function and the arguments of each subtask. -/
def outline (breakdown : Breakdown) : String × List (String × Dictionary String) :=
  (breakdown.input, breakdown.subtasks.map fun t => (t.function, argumentTexts t.arguments))

/-- An answer with an input, whose first subtask spells its own with a capital letter. -/
def capitalAnswer : String :=
  "\x7b\"input\":\"cars\",\"subtasks\":[" ++
    "\x7b\"function\":\"text.Upper\",\"args\":\x7b\"Input\":\"boats\"\x7d\x7d,\x7b\"function\":\"join\"\x7d]\x7d"

theorem outline_capitalAnswer : (readDocument Breakdown.decoder capitalAnswer).map outline =
    .ok ("cars", [("text.Upper", .ofList [("Input", "boats")]), ("join", ∅)]) := by
  decide +kernel

theorem steps_capitalAnswer : (readSubtasks capitalAnswer "say" Plan.relays).map (·.steps) =
    .ok [⟨"text", "Upper", .ofList [("Input", "boats"), ("input", "cars")], [], none⟩,
      ⟨globalPlugin, "join", ∅, [], none⟩] := by
  decide +kernel

theorem exists_capitalAnswer : ∃ breakdown first rest, readDocument Breakdown.decoder capitalAnswer = .ok breakdown ∧
    breakdown.subtasks = first :: rest ∧ breakdown.input = "cars" ∧
      argumentTexts first.arguments = .ofList [("Input", "boats")] := by
  have houtline := outline_capitalAnswer
  cases hread : readDocument Breakdown.decoder capitalAnswer with
  | error e =>
    rw [hread] at houtline
    cases houtline
  | ok breakdown =>
    rw [hread] at houtline
    obtain ⟨hinput, hsubtasks⟩ := Prod.mk.inj (Except.ok.inj houtline)
    obtain ⟨first, rest, hparts, hfirst, -⟩ := List.map_eq_cons_iff.mp hsubtasks
    exact ⟨breakdown, first, rest, rfl, hparts, hinput, (Prod.mk.inj hfirst).2⟩

/-- **An input that is spelled `Input` is overridden**: the input of the answer is added to the step all the same. -/
theorem readSubtasks_overrides :
    ¬∀ k answer goal breakdown first rest plan step steps, readDocument Breakdown.decoder answer = .ok breakdown →
      breakdown.subtasks = first :: rest → readSubtasks answer goal k = .ok plan → plan.steps = step :: steps →
        first.GivesInput → IsCallOf k first step := by
  intro law
  obtain ⟨breakdown, first, rest, hread, hsubtasks, -, harguments⟩ := exists_capitalAnswer
  have hsteps := steps_capitalAnswer
  cases hplan : readSubtasks capitalAnswer "say" Plan.relays with
  | error e =>
    rw [hplan] at hsteps
    cases hsteps
  | ok plan =>
    rw [hplan] at hsteps
    have hgiven : first.GivesInput := by
      have hboats : (argumentTexts first.arguments).get? "Input" = some "boats" := by rw [harguments]; decide
      rw [get?_argumentTexts, Option.bind_eq_some_iff] at hboats
      obtain ⟨value, hvalue, htext⟩ := hboats
      exact ⟨"Input", value, "boats", hvalue, by decide, htext, by decide⟩
    have hcall := law _ _ _ _ _ _ _ _ _ hread hsubtasks hplan (Except.ok.inj hsteps) hgiven
    -- the subtask has no argument `input`, the step has
    have hinput := hcall.get?_parameters "input"
    rw [← get?_argumentTexts, harguments] at hinput
    exact absurd hinput (by decide)

theorem readSubtasks_placesInput_capital : ∃ breakdown first rest,
    readDocument Breakdown.decoder capitalAnswer = .ok breakdown ∧ breakdown.subtasks = first :: rest ∧
      breakdown.input = "cars" ∧
      InputPlaced Plan.relays breakdown.input first rest (readSubtasks capitalAnswer "say" Plan.relays) := by
  obtain ⟨breakdown, first, rest, hread, hsubtasks, hinput, -⟩ := exists_capitalAnswer
  exact ⟨breakdown, first, rest, hread, hsubtasks, hinput,
    readSubtasks_placesInput Plan.relays capitalAnswer "say" hread hsubtasks⟩

end Planner

end Orchestration
