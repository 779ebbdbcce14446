import Orchestration.Proofs.ActionCounts
import Orchestration.Proofs.Selection

/-!
# Stepwise runs, turn by turn

What a stepwise run asks for and how it ends, whatever the model answers and whatever the functions do. What
a function asks for in turn is part of its call.

* `Stepwise.Taken`, `Stepwise.takeTurn_taken` — a turn calls a function at most once, and never fails.
* `Stepwise.Progress` — turns without a final answer, with the log that they leave.
* `Stepwise.Ended`, `Stepwise.turns_ended` — the three ways in which turns end.
* `Stepwise.WellRun`, `Stepwise.run_wellRun` — what holds of every run.
-/

namespace Orchestration

open Text Planner

/-! ### What an answer is read as -/

namespace Step

theorem noted_finalAnswer (s : Step) : s.noted.finalAnswer = s.finalAnswer := by
  rw [noted]
  split <;> rfl

/-- An answer with a final answer has no action. -/
theorem parse_action_of_finalAnswer {response : String} (h : (parse response).finalAnswer ≠ "") :
    (parse response).action = "" := by
  rw [parse] at h ⊢
  cases hfinal : finalAnswer? response.toList with
  | some answer => rfl
  | none =>
    -- without the mark there is no final answer either
    simp only [hfinal] at h
    split at h
    · exact absurd (noted_finalAnswer _) h
    · split at h
      · exact absurd (noted_finalAnswer _) h
      · exact absurd (noted_finalAnswer _) h

end Step

namespace Stepwise

variable {s : Setting} {log later : List (Exchange Errands)} {steps : List Step} {step : Step}
  {outcome : Except PlanningError StepwiseResult}

/-! ### A turn -/

theorem invoking_ne_empty (action report : String) :
    s!"Error invoking action {action}: {report}" ≠ "" := by
  intro h
  have hlength := congrArg String.length h
  simp only [toString, String.length_append, String.length_empty] at hlength
  have hmark : "Error invoking action ".length = 22 := rfl
  omega

/-- Whatever comes of an action, something is observed. -/
theorem observe_ne_empty (action : String) (outcome : Except Failure String) :
    observe action outcome ≠ "" := by
  cases outcome with
  | ok output =>
    by_cases hblank : isBlankText output
    · have heq : observe action (.ok output) = "Got no result from action" := if_pos hblank
      rw [heq]
      simp
    · have heq : observe action (.ok output) = output := if_neg hblank
      rw [heq]
      rintro rfl
      exact hblank rfl
  | error e => exact invoking_ne_empty action e.report

/-- The exchange in which the model is asked after some turns. -/
def asking (s : Setting) (steps : List Step) (answer : Except AiError String) : Exchange Errands :=
  ⟨.complete s.completion (promptAfter s steps) (settings s.config), answer⟩

/-- What becomes of a turn without a final answer: the calls that are made for it, and the turn as it is
kept. -/
inductive Taken (s : Setting) (step : Step) : List (Exchange Errands) → Step → Prop where
  /-- without an action there is nothing to do -/
  | idle (haction : step.action = "") : Taken s step [] step
  /-- an action that names no function on offer is observed, and nothing is called -/
  | unknown {e : Failure} (haction : step.action ≠ "") (hf : actionFunction? s step.action = .error e) :
      Taken s step [] { step with observation := observe step.action (.error e) }
  /-- otherwise the function is called once, and what came of it is observed -/
  | called {f : Function} (answer : Except Failure String) (haction : step.action ≠ "")
      (hf : actionFunction? s step.action = .ok f) :
      Taken s step [⟨.call f (.ofList step.actionVariables.entries), answer⟩]
        { step with observation := observe step.action answer }

/-- **A turn never fails**, whatever its action comes to. -/
theorem takeTurn_taken {outcome : Except PlanningError Step} (h : Ends (takeTurn s step) log outcome) :
    ∃ taken, outcome = .ok taken ∧ Taken s step log taken := by
  rw [takeTurn] at h
  split at h
  · next hempty =>
    obtain ⟨rfl, rfl⟩ := ends_pure.mp h
    exact ⟨step, rfl, .idle (by simpa using hempty)⟩
  · next hempty =>
    have haction : step.action ≠ "" := by simpa using hempty
    rcases ends_bind.mp h with ⟨e, hfail, -⟩ | ⟨calls, result, last, hcall, hkept, rfl⟩
    · -- an attempt has an outcome in any case
      obtain ⟨_, -, hout⟩ := Task.ends_attempt.mp hfail
      cases hout
    · obtain ⟨rfl, rfl⟩ := ends_pure.mp hkept
      obtain ⟨inner, hinner, hout⟩ := Task.ends_attempt.mp hcall
      obtain rfl := Except.ok.inj hout
      refine ⟨_, rfl, ?_⟩
      rw [List.append_nil]
      rw [callAction] at hinner
      cases hf : actionFunction? s step.action with
      | error e =>
        rw [hf] at hinner
        obtain ⟨rfl, rfl⟩ := Task.ends_error_bind.mp hinner
        exact .unknown haction hf
      | ok f =>
        rw [hf] at hinner
        obtain rfl := Task.ends_call.mp (Task.ends_ok_bind.mp hinner)
        exact .called result haction hf

namespace Taken

variable {calls : List (Exchange Errands)} {taken : Step}

theorem finalAnswer_eq (h : Taken s step calls taken) : taken.finalAnswer = step.finalAnswer := by
  cases h <;> rfl

/-- An action leaves an observation. -/
theorem observation_ne_empty (h : Taken s step calls taken) (haction : taken.action ≠ "") :
    taken.observation ≠ "" := by
  cases h with
  | idle hidle => exact absurd hidle haction
  | @unknown e _ _ => exact observe_ne_empty step.action (.error e)
  | called answer _ _ => exact observe_ne_empty step.action answer

/-- All that is done for a turn is a call of the function that its action names. -/
theorem call_of_mem (h : Taken s step calls taken) {x : Exchange Errands} (hx : x ∈ calls) :
    ∃ f v answer, x = ⟨.call f v, answer⟩ ∧ actionFunction? s step.action = .ok f := by
  cases h with
  | idle _ => cases hx
  | unknown _ _ => cases hx
  | called answer _ hf => exact ⟨_, _, answer, List.mem_singleton.mp hx, hf⟩

/-- The model is not asked for what an action comes to. -/
theorem completions_eq (h : Taken s step calls taken) : completions calls = 0 := by
  cases h <;> rfl

end Taken

/-! ### Turns -/

/-- Turns without a final answer, with the log that they leave: each begins with an answer of the model. -/
inductive Progress (s : Setting) : List (Exchange Errands) → List Step → Prop where
  /-- before the first turn -/
  | start : Progress s [] []
  /-- after one more -/
  | turn {log calls : List (Exchange Errands)} {steps : List Step} {response : String} {step : Step}
      (earlier : Progress s log steps) (hopen : (Step.parse response).finalAnswer = "")
      (htaken : Taken s (Step.parse response) calls step) :
      Progress s (log ++ asking s steps (.ok response) :: calls) (steps ++ [step])

/-- No action among the turns is without an observation. -/
def Observed (steps : List Step) : Prop := ∀ step ∈ steps, step.action ≠ "" → step.observation ≠ ""

namespace Progress

theorem completions_eq (h : Progress s log steps) : completions log = steps.length := by
  induction h with
  | start => rfl
  | @turn log calls steps response step earlier hopen htaken ih =>
    have hasking : completions (asking s steps (.ok response) :: calls) = completions calls + 1 :=
      List.countP_cons_of_pos rfl
    rw [completions_append, hasking, htaken.completions_eq, ih, List.length_append, List.length_singleton]

theorem finalAnswer_eq (h : Progress s log steps) : ∀ step ∈ steps, step.finalAnswer = "" := by
  induction h with
  | start => exact fun _ hmem => absurd hmem List.not_mem_nil
  | turn _ hopen htaken ih =>
    intro step hmem
    rcases List.mem_append.mp hmem with hmem | hmem
    · exact ih step hmem
    · rw [List.mem_singleton.mp hmem, htaken.finalAnswer_eq, hopen]

theorem observed (h : Progress s log steps) : Observed steps := by
  induction h with
  | start => exact fun _ hmem => absurd hmem List.not_mem_nil
  | turn _ _ htaken ih =>
    intro step hmem
    rcases List.mem_append.mp hmem with hmem | hmem
    · exact ih step hmem
    · rw [List.mem_singleton.mp hmem]
      exact htaken.observation_ne_empty

/-- **What the log of turns consists of**: the model was asked after some of them and gave no final answer,
or a function was called that an action names. -/
theorem exchange_cases (h : Progress s log steps) {x : Exchange Errands} (hx : x ∈ log) :
    (∃ shown response, x = asking s shown (.ok response) ∧ Observed shown ∧
      (Step.parse response).finalAnswer = "") ∨
    ∃ f v answer action, x = ⟨.call f v, answer⟩ ∧ actionFunction? s action = .ok f := by
  induction h with
  | start => cases hx
  | turn earlier hopen htaken ih =>
    rcases List.mem_append.mp hx with hx | hx
    · exact ih hx
    · rcases List.mem_cons.mp hx with rfl | hx
      · exact .inl ⟨_, _, rfl, earlier.observed, hopen⟩
      · obtain ⟨f, v, answer, rfl, hf⟩ := htaken.call_of_mem hx
        exact .inr ⟨f, v, answer, _, rfl, hf⟩

end Progress

theorem completions_concat_asking {answer : Except AiError String} :
    completions (log ++ [asking s steps answer]) = completions log + 1 :=
  completions_append ..

/-- **How turns end**, with the log that they leave. -/
inductive Ended (s : Setting) : List (Exchange Errands) → Except PlanningError StepwiseResult → Prop where
  /-- the model gives a final answer -/
  | answered {log : List (Exchange Errands)} {steps : List Step} {response : String}
      (earlier : Progress s log steps) (hroom : steps.length < s.config.maxIterations)
      (hfinal : (Step.parse response).finalAnswer ≠ "") :
      Ended s (log ++ [asking s steps (.ok response)])
        (.ok (finish (Step.parse response).finalAnswer (steps ++ [Step.parse response])))
  /-- the model fails -/
  | failed {log : List (Exchange Errands)} {steps : List Step} {cause : AiError}
      (earlier : Progress s log steps) (hroom : steps.length < s.config.maxIterations) :
      Ended s (log ++ [asking s steps (.error cause)]) (.error (.ai cause))
  /-- there are no turns left -/
  | exhausted {log : List (Exchange Errands)} {steps : List Step} (earlier : Progress s log steps)
      (hfull : steps.length = s.config.maxIterations) :
      Ended s log (.error (.maxIterationsExceeded s.config.maxIterations))

namespace Ended

/-- The model is asked once for each turn before the last, and at most once more. -/
theorem completions_le (h : Ended s log outcome) : completions log ≤ s.config.maxIterations := by
  cases h with
  | answered earlier hroom _ =>
    rw [completions_concat_asking, earlier.completions_eq]
    exact hroom
  | failed earlier hroom =>
    rw [completions_concat_asking, earlier.completions_eq]
    exact hroom
  | exhausted earlier hfull => exact Nat.le_of_eq (earlier.completions_eq.trans hfull)

/-- **What the log consists of**: the model was asked after some turns, or a function was called that an
action names. -/
theorem exchange_cases (h : Ended s log outcome) {x : Exchange Errands} (hx : x ∈ log) :
    (∃ shown answer, x = asking s shown answer ∧ Observed shown) ∨
    ∃ f v answer action, x = ⟨.call f v, answer⟩ ∧ actionFunction? s action = .ok f := by
  have hbefore : ∀ {log steps}, Progress s log steps → x ∈ log →
      (∃ shown answer, x = asking s shown answer ∧ Observed shown) ∨
      ∃ f v answer action, x = ⟨.call f v, answer⟩ ∧ actionFunction? s action = .ok f := by
    intro log steps earlier hmem
    rcases earlier.exchange_cases hmem with ⟨shown, response, heq, hobserved, -⟩ | hcall
    · exact .inl ⟨shown, .ok response, heq, hobserved⟩
    · exact .inr hcall
  cases h with
  | answered earlier _ _ =>
    rcases List.mem_append.mp hx with hmem | hmem
    · exact hbefore earlier hmem
    · exact .inl ⟨_, _, List.mem_singleton.mp hmem, earlier.observed⟩
  | failed earlier _ =>
    rcases List.mem_append.mp hx with hmem | hmem
    · exact hbefore earlier hmem
    · exact .inl ⟨_, _, List.mem_singleton.mp hmem, earlier.observed⟩
  | exhausted earlier _ => exact hbefore earlier hx

/-- A result has all the turns before the last, which have no final answer, and the last, which has one. -/
theorem result_cases {r : StepwiseResult} (h : Ended s log (.ok r)) :
    ∃ earlier last, r = finish last.finalAnswer (earlier ++ [last]) ∧
      (earlier ++ [last]).length = completions log ∧ last.finalAnswer ≠ "" ∧
      (∀ step ∈ earlier, step.finalAnswer = "") ∧ Observed (earlier ++ [last]) := by
  cases h with
  | @answered log steps response earlier hroom hfinal =>
    refine ⟨steps, Step.parse response, rfl, ?_, hfinal, earlier.finalAnswer_eq, ?_⟩
    · rw [completions_concat_asking, earlier.completions_eq, List.length_append, List.length_singleton]
    · intro step hmem haction
      rcases List.mem_append.mp hmem with hmem | hmem
      · exact earlier.observed step hmem haction
      · -- the last turn has no action
        rw [List.mem_singleton.mp hmem] at haction
        exact absurd (Step.parse_action_of_finalAnswer hfinal) haction

/-- A failure is one of the model when it was asked last, or there were too few turns. -/
theorem failure_cases {e : PlanningError} (h : Ended s log (.error e)) :
    (∃ earlier steps cause, e = .ai cause ∧ log = earlier ++ [asking s steps (.error cause)]) ∨
    ∃ steps, Progress s log steps ∧ steps.length = s.config.maxIterations ∧
      e = .maxIterationsExceeded s.config.maxIterations := by
  cases h with
  | failed earlier _ => exact .inl ⟨_, _, _, rfl, rfl⟩
  | exhausted earlier hfull => exact .inr ⟨_, earlier, hfull, rfl⟩

/-- Where there were too few turns, the model gave no final answer in any of them. -/
theorem exhausted_cases {n : Nat} (h : Ended s log (.error (.maxIterationsExceeded n))) :
    n = s.config.maxIterations ∧ completions log = n ∧
      ∀ completion prompt settings answer, ⟨.complete completion prompt settings, answer⟩ ∈ log →
        ∃ response, answer = .ok response ∧ (Step.parse response).finalAnswer = "" := by
  rcases h.failure_cases with ⟨_, _, _, he, -⟩ | ⟨steps, earlier, hfull, he⟩
  · cases he
  · obtain rfl := PlanningError.maxIterationsExceeded.inj he
    refine ⟨rfl, earlier.completions_eq.trans hfull, ?_⟩
    intro completion prompt settings answer hx
    rcases earlier.exchange_cases hx with ⟨_, response, heq, -, hopen⟩ | ⟨_, _, _, _, heq, -⟩
    · cases heq
      exact ⟨response, rfl, hopen⟩
    · cases heq

end Ended

/-- **Turns end in one of the three ways**, by induction on how many are left. -/
theorem turns_ended {left : Nat} (hearlier : Progress s log steps)
    (hleft : steps.length + left = s.config.maxIterations)
    (h : Ends (turns s left steps) later outcome) : Ended s (log ++ later) outcome := by
  induction left generalizing log later steps with
  | zero =>
    obtain ⟨rfl, rfl⟩ := ends_throw.mp h
    rw [List.append_nil]
    exact .exhausted hearlier hleft
  | succ left ih =>
    have hroom : steps.length < s.config.maxIterations := by omega
    rw [turns] at h
    rcases Task.ends_mapError_bind.mp h with ⟨cause, hask, rfl⟩ | ⟨first, response, rest, hask, hrest, rfl⟩
    · obtain rfl := Task.ends_complete.mp hask
      exact .failed hearlier hroom
    · obtain rfl := Task.ends_complete.mp hask
      simp only at hrest
      split at hrest
      · next hempty =>
        have hopen : (Step.parse response).finalAnswer = "" := by simpa using hempty
        rcases ends_bind.mp hrest with ⟨e, hturn, -⟩ | ⟨calls, taken, others, hturn, hothers, rfl⟩
        · obtain ⟨_, hout, -⟩ := takeTurn_taken hturn
          cases hout
        · obtain ⟨_, hout, htaken⟩ := takeTurn_taken hturn
          obtain rfl := Except.ok.inj hout
          -- one more turn is made, and one fewer is left
          have hmore := ih (.turn hearlier hopen htaken) (by simp; omega) hothers
          simpa [asking] using hmore
      · next hfinal =>
        obtain ⟨rfl, rfl⟩ := ends_pure.mp hrest
        exact .answered hearlier hroom (by simpa using hfinal)

/-! ### Runs -/

/-- An action leads only to functions that may be called, and to each under the names in its view. -/
theorem actionFunction?_offered (hk : s.kernel.registry.Filed)
    (hlisted : ∀ v ∈ s.functions, v ∈ s.kernel.registry.views) {action : String} {f : Function}
    (h : actionFunction? s action = .ok f) :
    f.view ∈ s.functions ∧ s.kernel.registry.get f.view.plugin f.view.name = .ok f := by
  rw [actionFunction?] at h
  split at h
  next plugin name _ =>
    cases hfound : s.functions.find? fun v =>
        sameAsciiLetters v.plugin plugin && sameAsciiLetters v.name name with
    | none =>
      simp only [hfound] at h
      cases h
    | some v =>
      simp only [hfound] at h
      have hmem := List.mem_of_find?_eq_some hfound
      obtain ⟨g, hget, rfl⟩ := hk.get_of_mem_views (hlisted v hmem)
      rw [Registry.get_eq_ok_iff.mpr hget] at h
      obtain rfl := Except.ok.inj h
      exact ⟨hmem, Registry.get_eq_ok_iff.mpr hget⟩

/-- **A run** fails before the model is asked anything, or it takes turns with the functions on offer. -/
theorem run_cases {k : Kernel} {c : Config.Planner} {question : String}
    (hquestion : isBlankText question = false) (h : Ends (run k c question) log outcome) :
    (∃ e, outcome = .error e ∧ ((∃ cause, e = .kernel cause) ∨ e.IsOfService) ∧
      ∀ x ∈ log, Errand.isEmbedding x.request) ∨
    ∃ completion before functions later, Ends (available k c question) before (.ok functions) ∧
      log = before ++ later ∧ Ended ⟨k, c, completion, functions, question⟩ later outcome := by
  rw [run, hquestion] at h
  rcases ends_bind.mp h with ⟨e, hservice, rfl⟩ | ⟨first, completion, rest, hservice, hrest, rfl⟩
  · obtain ⟨rfl, hout⟩ := Task.ends_ofExcept.mp hservice
    refine .inl ⟨e, rfl, .inl ?_, fun _ hx => absurd hx List.not_mem_nil⟩
    rw [Kernel.requireCompletion] at hout
    cases hc : k.completion with
    | none =>
      rw [hc] at hout
      exact ⟨_, Except.error.inj hout⟩
    | some completion =>
      rw [hc] at hout
      cases hout
  · obtain ⟨rfl, -⟩ := Task.ends_ofExcept.mp hservice
    rcases ends_bind.mp hrest with ⟨e, hchoice, rfl⟩ | ⟨before, functions, later, hchoice, hturns, rfl⟩
    · obtain ⟨hasked, hended⟩ := available_stays k c question _ _ hchoice
      exact .inl ⟨e, rfl, .inr hended, hasked⟩
    · refine .inr ⟨completion, before, functions, later, hchoice, rfl, ?_⟩
      exact turns_ended .start (Nat.zero_add _) hturns

/-- **What holds of every run**, in the log that it leaves and in its outcome. -/
structure WellRun (k : Kernel) (c : Config.Planner) (question : String) (log : List (Exchange Errands))
    (outcome : Except PlanningError StepwiseResult) : Prop where
  /-- the model is asked at most as often as the configuration allows -/
  bounded : completions log ≤ c.maxIterations
  /-- a result has one turn for each time that the model was asked; only the last has a final answer, which
  is the answer -/
  answered : ∀ r, outcome = .ok r →
    r.iterations = r.steps.length ∧ r.steps.length = completions log ∧ r.answer ≠ "" ∧
      ∃ earlier last, r.steps = earlier ++ [last] ∧ last.finalAnswer = r.answer ∧
        ∀ step ∈ earlier, step.finalAnswer = ""
  /-- every action in a result has its observation, and so has every action that the model is shown on the
  way -/
  observed : (∀ r, outcome = .ok r → Observed r.steps) ∧
    ∀ x ∈ log, Errand.isCompletion x.request →
      ∃ completion functions shown answer,
        x = asking ⟨k, c, completion, functions, question⟩ shown answer ∧ Observed shown
  /-- no action breaks a run off: one that fails does so before its first turn, or because the model failed
  when it was asked last, or for want of turns -/
  unbroken : ∀ e, outcome = .error e →
    (((∃ cause, e = .kernel cause) ∨ e.IsOfService) ∧ ∀ x ∈ log, Errand.isEmbedding x.request) ∨
    (∃ completion prompt settings cause,
      e = .ai cause ∧ log.getLast? = some ⟨.complete completion prompt settings, .error cause⟩) ∨
    e = .maxIterationsExceeded c.maxIterations
  /-- each action is counted as often as it was named, and together they are the turns with an action -/
  counted : ∀ r, outcome = .ok r →
    r.functionCounts.total = actions r.steps ∧
      ∀ name n, r.functionCounts.get? name = some n ↔ name ≠ "" ∧ 0 < n ∧ n = actionsNamed name r.steps
  /-- every function that is called was among those chosen at the start, and is registered under its names -/
  offered : ∀ f v answer, ⟨.call f v, answer⟩ ∈ log →
    ∃ before functions, before <+: log ∧ Ends (available k c question) before (.ok functions) ∧
      f.view ∈ functions ∧ k.registry.get f.view.plugin f.view.name = .ok f
  /-- a run for which the turns were too few made all of them, and none had a final answer -/
  exhausted : ∀ n, outcome = .error (.maxIterationsExceeded n) →
    n = c.maxIterations ∧ completions log = n ∧
      ∀ completion prompt settings answer, ⟨.complete completion prompt settings, answer⟩ ∈ log →
        ∃ response, answer = .ok response ∧ (Step.parse response).finalAnswer = ""

section Assembling

variable {k : Kernel} {c : Config.Planner} {question : String}

/-- A run that fails before its first turn has nothing to answer for. -/
theorem wellRun_of_unstarted {e : PlanningError} (he : (∃ cause, e = .kernel cause) ∨ e.IsOfService)
    (hlog : ∀ x ∈ log, Errand.isEmbedding x.request) : WellRun k c question log (.error e) where
  bounded := by
    rw [completions_eq_zero hlog]
    exact Nat.zero_le _
  answered := nofun
  observed := by
    refine ⟨nofun, ?_⟩
    intro x hx hcompletion
    rw [Errand.isCompletion_of_isEmbedding (hlog x hx)] at hcompletion
    cases hcompletion
  unbroken e' he' := by
    obtain rfl := Except.error.inj he'
    exact .inl ⟨he, hlog⟩
  counted := nofun
  offered f v answer hx := by
    have hembedding := hlog _ hx
    cases hembedding
  exhausted n hn := by
    obtain rfl := Except.error.inj hn
    rcases he with ⟨_, he⟩ | ⟨_, he⟩ | ⟨_, he⟩ <;> cases he

/-- The function that an action leads to is among those chosen at the start. -/
theorem call_offered {completion : Completion} {functions : List FunctionView}
    {before : List (Exchange Errands)} (hk : k.registry.Filed)
    (hchoice : Ends (available k c question) before (.ok functions)) {action : String} {f : Function}
    (hf : actionFunction? ⟨k, c, completion, functions, question⟩ action = .ok f) :
    f.view ∈ functions ∧ k.registry.get f.view.plugin f.view.name = .ok f := by
  have hchosen : ∀ v ∈ functions, v ∈ offered k c := (available_stays k c question _ _ hchoice).2
  exact actionFunction?_offered hk (fun v hv => (mem_offered_iff.mp (hchosen v hv)).1) hf

/-- A run that took turns keeps what was promised of it. -/
theorem wellRun_of_ended {completion : Completion} {functions : List FunctionView}
    {before : List (Exchange Errands)} (hk : k.registry.Filed)
    (hchoice : Ends (available k c question) before (.ok functions))
    (h : Ended ⟨k, c, completion, functions, question⟩ later outcome) :
    WellRun k c question (before ++ later) outcome := by
  have hembeddings := (available_stays k c question _ _ hchoice).1
  have hcompletions : completions (before ++ later) = completions later := by
    rw [completions_append, completions_eq_zero hembeddings, Nat.zero_add]
  -- what is no embedding was asked for in a turn
  have hlater : ∀ x ∈ before ++ later, Errand.isEmbedding x.request = false → x ∈ later := by
    intro x hx hother
    rcases List.mem_append.mp hx with hmem | hmem
    · rw [hembeddings x hmem] at hother
      cases hother
    · exact hmem
  refine ⟨?bounded, ?answered, ?observed, ?unbroken, ?counted, ?offered, ?exhausted⟩
  case bounded =>
    rw [hcompletions]
    exact h.completions_le
  case answered =>
    rintro r rfl
    obtain ⟨earlier, last, rfl, hlength, hfinal, hopen, -⟩ := h.result_cases
    exact ⟨rfl, hlength.trans hcompletions.symm, hfinal, earlier, last, rfl, rfl, hopen⟩
  case observed =>
    constructor
    · rintro r rfl
      obtain ⟨earlier, last, rfl, -, -, -, hobserved⟩ := h.result_cases
      exact hobserved
    · intro x hx hcompletion
      have hmem := hlater x hx (Errand.isEmbedding_of_isCompletion hcompletion)
      rcases h.exchange_cases hmem with ⟨shown, answer, rfl, hobserved⟩ | ⟨f, v, answer, action, rfl, -⟩
      · exact ⟨completion, functions, shown, answer, rfl, hobserved⟩
      · cases hcompletion
  case unbroken =>
    rintro e rfl
    rcases h.failure_cases with ⟨earlier, steps, cause, rfl, rfl⟩ | ⟨steps, -, -, rfl⟩
    · rw [← List.append_assoc, List.getLast?_concat]
      exact .inr (.inl ⟨_, _, _, cause, rfl, rfl⟩)
    · exact .inr (.inr rfl)
  case counted =>
    rintro r rfl
    obtain ⟨earlier, last, rfl, -⟩ := h.result_cases
    exact ⟨total_countActions, fun _ _ => get?_countActions_iff⟩
  case offered =>
    intro f v answer hx
    refine ⟨before, functions, List.prefix_append .., hchoice, ?_⟩
    rcases h.exchange_cases (hlater _ hx rfl) with ⟨_, _, heq, -⟩ | ⟨g, _, _, action, heq, hf⟩
    · cases heq
    · cases heq
      exact call_offered hk hchoice hf
  case exhausted =>
    rintro n rfl
    obtain ⟨hn, hasked, hopen⟩ := h.exhausted_cases
    exact ⟨hn, hcompletions.trans hasked, fun service prompt settings answer hx =>
      hopen service prompt settings answer (hlater _ hx rfl)⟩

end Assembling

/-- **Every run goes well**: in a kernel put together in any way, for every question that is not blank, whatever
the model answers and whatever the functions do. -/
theorem run_wellRun (assembly : List Assembly) (c : Config.Planner) (question : String)
    (log : List (Exchange Errands)) (outcome : Except PlanningError StepwiseResult)
    (hquestion : isBlankText question = false)
    (h : Ends (run (Kernel.assembled assembly) c question) log outcome) :
    WellRun (Kernel.assembled assembly) c question log outcome := by
  rcases run_cases hquestion h with
    ⟨e, rfl, he, hlog⟩ | ⟨completion, before, functions, later, hchoice, rfl, hended⟩
  · exact wellRun_of_unstarted he hlog
  · exact wellRun_of_ended (Kernel.filed_assembled assembly) hchoice hended

/-- A model that has a function called first, then one that is not there, and then answers. -/
def scripted : Program.Surroundings Errands (List String)
  | .complete .., answers => (.ok (answers.headD ""), answers.tail)
  | .embed .., answers => (.ok [], answers)
  | .call .., answers => (.ok "5", answers)

/-- A run of three turns, one of which fails. -/
theorem run_wellRun_scripted :
    let k := Kernel.assembled [.attachCompletion ⟨fun _ _ => pure ""⟩, .register "math" (.echo "add")]
    isBlankText "what is 2 plus 3?" = false ∧
      ∃ log r, Ends (run k {} "what is 2 plus 3?") log (.ok r) ∧ r.answer = "5" ∧ completions log = 3 ∧
        WellRun k {} "what is 2 plus 3?" log (.ok r) := by
  intro k
  have hquestion : isBlankText "what is 2 plus 3?" = false := by decide
  let answers := [
    "[THOUGHT] add\n[ACTION] \x7b\"action\": \"math.add\"\x7d",
    "[ACTION] \x7b\"action\": \"math.launch\"\x7d",
    "[FINAL ANSWER] 5"]
  obtain ⟨log, hlog, hasked⟩ := Program.exists_transcript scripted (run k {} "what is 2 plus 3?").run answers
  have hanswer : (Program.run scripted (run k {} "what is 2 plus 3?").run answers).1.toOption.map
      (·.answer) = some "5" := by decide +kernel
  have hcount : completions log = 3 := by
    have hrequests : requests log = _ := hasked
    rw [completions, hrequests]
    decide +kernel
  cases hrun : (Program.run scripted (run k {} "what is 2 plus 3?").run answers).1 with
  | error e =>
    rw [hrun] at hanswer
    cases hanswer
  | ok r =>
    rw [hrun] at hanswer hlog
    exact ⟨hquestion, log, r, hlog, Option.some.inj hanswer, hcount,
      run_wellRun _ {} _ log (.ok r) hquestion hlog⟩


end Stepwise

end Orchestration
