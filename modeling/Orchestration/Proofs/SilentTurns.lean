import Mathlib.Data.List.Forall2
import Orchestration.Proofs.Scanning
import Orchestration.Proofs.StepwiseRun

/-!
# Turns that say nothing

A turn ends a run or leaves something for the model to react to: a thought, what came of an action, or a note on what is
wrong with the answer. There is one exception. An answer in which nothing but blanks follows the mark of the final
answer is taken as final, and then it is not: the run goes on, and the turn is empty.

* `Step.finalAnswer?_eq_some_iff` — what is read as the final answer.
* `Step.says_parse_iff` — which answers say something.
* `Stepwise.LeftBy` — the turn that an answer leaves.
* `Stepwise.run_leavesTurns` — what the turns of a run leave.
* `Stepwise.parse_blankFinal` — an answer that leaves nothing.
-/

namespace Orchestration

open Text Planner

namespace Step

/-! ### Answers that say something -/

/-- **The final answer** is what follows its first mark, if anything does. -/
theorem finalAnswer?_eq_some_iff {cs answer : List Char} :
    finalAnswer? cs = some answer ↔ ∃ before after, cs = before ++ (finalMark.toList ++ after) ∧
      ¬finalMark.toList <:+: before ∧ after ≠ [] ∧ answer = trimChars after := by
  constructor
  · intro h
    rw [finalAnswer?] at h
    split at h
    · next before c rest hcut =>
      obtain ⟨rfl, hbefore⟩ := splitFirst?_eq_some (by decide) hcut
      exact ⟨before, c :: rest, rfl, hbefore, List.cons_ne_nil c rest, (Option.some.inj h).symm⟩
    · cases h
  · rintro ⟨before, after, rfl, hbefore, hne, rfl⟩
    have hcut : splitFirst? finalMark.toList (before ++ (finalMark.toList ++ after)) = some (before, after) := by
      refine splitFirst?_append_mark (by decide) fun s hs hs' hp => hbefore ?_
      -- the mark has its bracket at the start only, and so it does not reach over the next one
      have hstart : finalMark.toList <+: s := prefix_of_prefix_append_cons (by decide) hs' hp
      exact hstart.isInfix.trans hs.isInfix
    obtain ⟨c, rest, rfl⟩ := List.exists_cons_of_ne_nil hne
    rw [finalAnswer?, hcut]

/-- Without the mark there is no final answer. -/
theorem finalAnswer?_eq_none {cs : List Char} (h : ¬finalMark.toList <:+: cs) : finalAnswer? cs = none := by
  cases hfinal : finalAnswer? cs with
  | none => rfl
  | some answer =>
    obtain ⟨before, after, rfl, -⟩ := finalAnswer?_eq_some_iff.mp hfinal
    exact absurd ⟨before, after, by simp⟩ h

/-- **Only blanks follow the mark** of the final answer, and there are some. -/
def BlankFinal (response : String) : Prop :=
  ∃ before after : String, response = before ++ (finalMark ++ after) ∧ ¬finalMark.toList <:+: before.toList ∧
    after ≠ "" ∧ isBlankText after = true

theorem blankFinal_iff {response : String} : BlankFinal response ↔ finalAnswer? response.toList = some [] := by
  rw [finalAnswer?_eq_some_iff]
  constructor
  · rintro ⟨before, after, rfl, hbefore, hne, hblank⟩
    refine ⟨before.toList, after.toList, by simp [String.toList_append], hbefore, by simpa using hne, ?_⟩
    exact (trimChars_eq_nil_iff.mpr (List.all_eq_true.mp hblank)).symm
  · rintro ⟨before, after, hresponse, hbefore, hne, hblank⟩
    refine ⟨.ofList before, .ofList after, ?_, by rwa [String.toList_ofList], by simpa using hne, ?_⟩
    · rw [← String.toList_inj, hresponse]
      simp [String.toList_append, String.toList_ofList]
    · rw [isBlankText, String.toList_ofList]
      exact List.all_eq_true.mpr (trimChars_eq_nil_iff.mp hblank.symm)

/-- The turn has a thought, an action or an observation. -/
def Says (s : Step) : Prop := s.thought ≠ "" ∨ s.action ≠ "" ∨ s.observation ≠ ""

/-- Where there is nothing in a turn, that is noted. -/
theorem says_noted (s : Step) : s.noted.Says := by
  rw [noted]
  split
  · have hnote : emptyAnswer ≠ "" := by decide
    exact .inr (.inr hnote)
  · next h =>
    simp only [Bool.and_eq_true, String.isEmpty_iff, not_and_or] at h
    rcases h with (h | h) | h
    · exact .inl h
    · exact .inr (.inl h)
    · exact .inr (.inr h)

/-- An answer with a final answer is read as nothing else. -/
theorem parse_of_finalAnswer? {response : String} {answer : List Char}
    (h : finalAnswer? response.toList = some answer) :
    parse response = { finalAnswer := .ofList answer, originalResponse := response } := by
  rw [parse, h]

/-- One without any is read as a turn, with a note where there is nothing in it. -/
theorem exists_parse_eq_noted {response : String} (h : finalAnswer? response.toList = none) :
    ∃ s : Step, parse response = s.noted ∧ s.thought = thoughtOf response ∧ s.finalAnswer = "" ∧
      s.originalResponse = response := by
  rw [parse, h]
  simp only
  split
  · exact ⟨_, rfl, rfl, rfl, rfl⟩
  · split
    · exact ⟨_, rfl, rfl, rfl, rfl⟩
    · exact ⟨_, rfl, rfl, rfl, rfl⟩

theorem noted_originalResponse (s : Step) : s.noted.originalResponse = s.originalResponse := by
  rw [noted]
  split <;> rfl

/-- A turn keeps the answer that it was read of. -/
theorem parse_originalResponse (response : String) : (parse response).originalResponse = response := by
  cases h : finalAnswer? response.toList with
  | some answer => rw [parse_of_finalAnswer? h]
  | none =>
    obtain ⟨s, hs, -, -, horiginal⟩ := exists_parse_eq_noted h
    rw [hs, noted_originalResponse, horiginal]

/-- **Every answer says something**, if only as the final one, but for those in which only blanks follow the mark. -/
theorem says_parse_iff (response : String) :
    (parse response).finalAnswer ≠ "" ∨ (parse response).Says ↔ ¬BlankFinal response := by
  rw [blankFinal_iff]
  cases h : finalAnswer? response.toList with
  | some answer =>
    rw [parse_of_finalAnswer? h]
    simp [Says]
  | none =>
    obtain ⟨s, hs, -⟩ := exists_parse_eq_noted h
    rw [hs]
    simp [says_noted]

end Step

namespace Stepwise

variable {s : Setting} {log before later calls : List (Exchange Errands)} {x y : Exchange Errands} {steps : List Step}
  {step taken : Step} {outcome : Except PlanningError StepwiseResult}

/-! ### Turns that are left -/

/-- What the model answered, in order. -/
def answers (log : List (Exchange Errands)) : List String :=
  log.filterMap fun
    | ⟨.complete .., .ok response⟩ => some response
    | _ => none

theorem answers_append (log later : List (Exchange Errands)) : answers (log ++ later) = answers log ++ answers later :=
  List.filterMap_append

theorem answers_eq_nil (h : ∀ x ∈ log, Errand.isCompletion x.request = false) : answers log = [] := by
  refine List.filterMap_eq_nil_iff.mpr fun x hx => ?_
  have hother := h x hx
  match x, hother with
  | ⟨.embed .., _⟩, _ => rfl
  | ⟨.call .., _⟩, _ => rfl

/-- **The turn that an answer leaves**: it does not end the run, and there is something in it to react to, but for an
answer in which only blanks follow the mark of the final answer. -/
structure LeftBy (response : String) (step : Step) : Prop where
  unended : (Step.parse response).finalAnswer = ""
  kept : step.originalResponse = response
  visible : step.thought ≠ "" ∨ step.observation ≠ "" ↔ ¬Step.BlankFinal response

namespace Taken

theorem calls_ne_completion (h : Taken s step calls taken) : ∀ x ∈ calls, Errand.isCompletion x.request = false := by
  intro x hx
  obtain ⟨_, _, _, rfl, -⟩ := h.call_of_mem hx
  rfl

theorem originalResponse_eq (h : Taken s step calls taken) : taken.originalResponse = step.originalResponse := by
  cases h <;> rfl

/-- A turn that says something leaves a thought or an observation, since an action leaves one. -/
theorem visible_iff (h : Taken s step calls taken) : taken.thought ≠ "" ∨ taken.observation ≠ "" ↔ step.Says := by
  cases h with
  | idle haction => simp [Step.Says, haction]
  | @unknown e haction _ => simp [Step.Says, haction, observe_ne_empty]
  | called answer haction _ => simp [Step.Says, haction, observe_ne_empty]

theorem leftBy {response : String} (hopen : (Step.parse response).finalAnswer = "")
    (h : Taken s (Step.parse response) calls taken) : LeftBy response taken where
  unended := hopen
  kept := by rw [h.originalResponse_eq, Step.parse_originalResponse]
  visible := by
    rw [h.visible_iff, ← Step.says_parse_iff]
    simp [hopen]

end Taken

/-- Where a log is split that has an exchange and others behind it. -/
theorem split_cases (h : log ++ y :: calls = before ++ x :: later) :
    (∃ more, log = before ++ x :: more) ∨ (log = before ∧ y = x) ∨ x ∈ calls := by
  rcases List.append_eq_append_iff.mp h with ⟨more, rfl, heq⟩ | ⟨more, rfl, heq⟩
  · rcases List.cons_eq_append_iff.mp heq with ⟨rfl, hcons⟩ | ⟨more, rfl, rfl⟩
    · exact .inr (.inl ⟨(List.append_nil log).symm, (List.cons.inj hcons).1.symm⟩)
    · exact .inr (.inr (by simp))
  · rcases List.cons_eq_append_iff.mp heq with ⟨rfl, hcons⟩ | ⟨more, rfl, rfl⟩
    · exact .inr (.inl ⟨List.append_nil before, (List.cons.inj hcons).1⟩)
    · exact .inl ⟨more, rfl⟩

/-- **Whenever the model is asked**, it is shown one turn for each of its answers so far. -/
def ShowsTurns (s : Setting) (log : List (Exchange Errands)) : Prop :=
  ∀ before x later, log = before ++ x :: later → Errand.isCompletion x.request →
    ∃ turns answer, x = asking s turns answer ∧ List.Forall₂ LeftBy (answers before) turns

/-- One more question keeps it so, with calls of functions behind it. -/
theorem ShowsTurns.asking (h : ShowsTurns s log) (hleft : List.Forall₂ LeftBy (answers log) steps)
    (answer : Except AiError String) (hcalls : ∀ x ∈ calls, Errand.isCompletion x.request = false) :
    ShowsTurns s (log ++ asking s steps answer :: calls) := by
  intro before x later hlog hx
  rcases split_cases hlog with ⟨more, hmore⟩ | ⟨rfl, rfl⟩ | hmem
  · exact h before x more hmore hx
  · exact ⟨steps, answer, rfl, hleft⟩
  · rw [hcalls x hmem] at hx
    cases hx

theorem answers_asking (steps : List Step) (response : String) (calls : List (Exchange Errands)) :
    answers (asking s steps (.ok response) :: calls) = response :: answers calls := rfl

namespace Progress

/-- **Each answer leaves its turn**, by induction on the turns. -/
theorem leftBy (h : Progress s log steps) : List.Forall₂ LeftBy (answers log) steps := by
  induction h with
  | start => exact .nil
  | turn _ hopen htaken ih =>
    rw [answers_append, answers_asking, answers_eq_nil htaken.calls_ne_completion]
    exact List.rel_append ih (.cons (htaken.leftBy hopen) .nil)

theorem showsTurns (h : Progress s log steps) : ShowsTurns s log := by
  induction h with
  | start => exact fun before x later hlog => absurd hlog (by simp)
  | turn earlier _ htaken ih => exact ih.asking earlier.leftBy _ htaken.calls_ne_completion

end Progress

theorem Ended.showsTurns (h : Ended s log outcome) : ShowsTurns s log := by
  cases h with
  | answered earlier _ _ => exact earlier.showsTurns.asking earlier.leftBy _ (by simp)
  | failed earlier _ => exact earlier.showsTurns.asking earlier.leftBy _ (by simp)
  | exhausted earlier _ => exact earlier.showsTurns

/-- **What the turns of a run leave**, in the log and in the outcome. -/
structure LeavesTurns (k : Kernel) (c : Config.Planner) (question : String) (log : List (Exchange Errands))
    (outcome : Except PlanningError StepwiseResult) : Prop where
  /-- whenever the model is asked, its scratchpad is written of the turns that its answers so far have left -/
  shown : ∀ before x later, log = before ++ x :: later → Errand.isCompletion x.request →
    ∃ completion functions turns answer, x = asking ⟨k, c, completion, functions, question⟩ turns answer ∧
      List.Forall₂ LeftBy (answers before) turns
  /-- every answer leaves a turn or ends the run, and only the last can end it -/
  ended : ∃ earlier turns, List.Forall₂ LeftBy earlier turns ∧
    (answers log = earlier ∧ (∃ e, outcome = .error e) ∨
      ∃ last, answers log = earlier ++ [last] ∧ (Step.parse last).finalAnswer ≠ "" ∧
        outcome = .ok (finish (Step.parse last).finalAnswer (turns ++ [Step.parse last])))

theorem Ended.ended (h : Ended s log outcome) : ∃ earlier turns, List.Forall₂ LeftBy earlier turns ∧
    (answers log = earlier ∧ (∃ e, outcome = .error e) ∨
      ∃ last, answers log = earlier ++ [last] ∧ (Step.parse last).finalAnswer ≠ "" ∧
        outcome = .ok (finish (Step.parse last).finalAnswer (turns ++ [Step.parse last]))) := by
  cases h with
  | answered earlier _ hfinal =>
    exact ⟨_, _, earlier.leftBy, .inr ⟨_, by rw [answers_append, answers_asking]; rfl, hfinal, rfl⟩⟩
  | @failed log _ _ earlier _ =>
    exact ⟨_, _, earlier.leftBy, .inl ⟨by rw [answers_append]; exact List.append_nil _, _, rfl⟩⟩
  | exhausted earlier _ => exact ⟨_, _, earlier.leftBy, .inl ⟨rfl, _, rfl⟩⟩

variable {k : Kernel} {c : Config.Planner} {question : String}

/-- A run in which no model is asked leaves nothing, and fails. -/
theorem leavesTurns_of_unasked {e : PlanningError} (h : ∀ x ∈ log, Errand.isCompletion x.request = false) :
    LeavesTurns k c question log (.error e) where
  shown before x later hlog hx := by
    rw [h x (by simp [hlog])] at hx
    cases hx
  ended := ⟨[], [], .nil, .inl ⟨answers_eq_nil h, e, rfl⟩⟩

/-- What the model is asked comes behind what is asked of others. -/
theorem exists_more {chosen turned : List (Exchange Errands)}
    (hchosen : ∀ y ∈ chosen, Errand.isCompletion y.request = false) (hx : Errand.isCompletion x.request)
    (h : chosen ++ turned = before ++ x :: later) : ∃ more, before = chosen ++ more ∧ turned = more ++ x :: later := by
  induction chosen generalizing before with
  | nil => exact ⟨before, rfl, h⟩
  | cons y chosen ih =>
    cases before with
    | nil =>
      obtain ⟨rfl, -⟩ := List.cons.inj h
      rw [hchosen _ List.mem_cons_self] at hx
      cases hx
    | cons z before =>
      obtain ⟨rfl, hrest⟩ := List.cons.inj h
      obtain ⟨more, rfl, rfl⟩ := ih (fun y hy => hchosen y (List.mem_cons_of_mem _ hy)) hrest
      exact ⟨more, rfl, rfl⟩

/-- **Every run** leaves its turns so, whatever the question, the model and the functions are. -/
theorem leavesTurns_of_ends (h : Ends (run k c question) log outcome) : LeavesTurns k c question log outcome := by
  cases hquestion : isBlankText question with
  | true =>
    rw [run, hquestion] at h
    obtain ⟨rfl, rfl⟩ := ends_throw.mp h
    exact leavesTurns_of_unasked fun _ hx => absurd hx List.not_mem_nil
  | false =>
    rcases run_cases hquestion h with
      ⟨e, rfl, -, hasked⟩ | ⟨completion, chosen, functions, turned, hchoice, rfl, hended⟩
    · exact leavesTurns_of_unasked fun x hx => Errand.isCompletion_of_isEmbedding (hasked x hx)
    · have hchosen : ∀ x ∈ chosen, Errand.isCompletion x.request = false := fun x hx =>
        Errand.isCompletion_of_isEmbedding ((available_stays k c question _ _ hchoice).1 x hx)
      refine ⟨fun before x later hlog hx => ?_, ?_⟩
      · obtain ⟨more, rfl, hmore⟩ := exists_more hchosen hx hlog
        obtain ⟨turns, answer, rfl, hleft⟩ := hended.showsTurns more x later hmore hx
        refine ⟨completion, functions, turns, answer, rfl, ?_⟩
        rwa [answers_append, answers_eq_nil hchosen, List.nil_append]
      · rw [answers_append, answers_eq_nil hchosen, List.nil_append]
        exact hended.ended

/-- **Every answer says something, and every turn ends the run or leaves something to react to**, with one exception
in both: an answer in which only blanks follow the mark of the final answer says nothing and leaves an empty turn. -/
theorem run_leavesTurns (k : Kernel) (c : Config.Planner) (question : String) (log : List (Exchange Errands))
    (outcome : Except PlanningError StepwiseResult) :
    (∀ response, (Step.parse response).finalAnswer ≠ "" ∨ (Step.parse response).Says ↔ ¬Step.BlankFinal response) ∧
      (Ends (run k c question) log outcome → LeavesTurns k c question log outcome) :=
  ⟨Step.says_parse_iff, leavesTurns_of_ends⟩

/-- **An answer with the mark and a blank says nothing**: it is neither final nor a turn. -/
theorem parse_blankFinal :
    ¬((Step.parse "[FINAL ANSWER] ").finalAnswer ≠ "" ∨ (Step.parse "[FINAL ANSWER] ").Says) := by
  have hparse : Step.parse "[FINAL ANSWER] " = { originalResponse := "[FINAL ANSWER] " } := by decide +kernel
  rw [hparse]
  simp [Step.Says]

/-- A run goes on after such an answer, with an empty turn. -/
theorem run_leavesTurns_blank :
    let k := Kernel.assembled [.attachCompletion ⟨fun _ _ => pure ""⟩]
    ∃ log r, Ends (run k {} "what is 2 plus 3?") log (.ok r) ∧ LeavesTurns k {} "what is 2 plus 3?" log (.ok r) ∧
      r.answer = "5" ∧ r.steps.map (fun step => (step.thought, step.observation)) = [("", ""), ("", "")] := by
  intro k
  let given := ["[FINAL ANSWER] ", "[FINAL ANSWER] 5"]
  obtain ⟨log, hlog, -⟩ := Program.exists_transcript scripted (run k {} "what is 2 plus 3?").run given
  have hanswer : (Program.run scripted (run k {} "what is 2 plus 3?").run given).1.toOption.map
      (fun r => (r.answer, r.steps.map fun step => (step.thought, step.observation))) =
        some ("5", [("", ""), ("", "")]) := by decide +kernel
  cases hrun : (Program.run scripted (run k {} "what is 2 plus 3?").run given).1 with
  | error e =>
    rw [hrun] at hanswer
    cases hanswer
  | ok r =>
    rw [hrun] at hanswer hlog
    obtain ⟨hfinal, hsteps⟩ := Prod.mk.inj (Option.some.inj hanswer)
    exact ⟨log, r, hlog, (run_leavesTurns k {} _ log (.ok r)).2 hlog, hfinal, hsteps⟩

end Stepwise

end Orchestration
