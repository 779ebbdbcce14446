import Orchestration.Proofs.PlanResult
import Orchestration.Proofs.SmallLetters

/-!
# Outputs that are added to a result

A step may add its output to a result variable. What the variable held is read only once the step has set the running
input and stored its output, and whether it was stored in that very variable is told by a coarser comparison of names
than the one by which variables are found. Where the two disagree, or the result is the running input itself, the
output is added to itself.

* `Plan.AddsOnce` — what should become of the result variable and the running input.
* `Plan.addsOnce_record_iff` — when it does.
* `Plan.run_addsOnce_iff` — so in every turn of every run.
* `Plan.run_adds_twice` — an output that is stored in `É` and added to `é` comes twice.
-/

namespace Orchestration.Plan

open Text Variables

variable {k : Kernel} {step : PlanStep} {name output : String} {before after : Variables}

/-! ### What should become of a result -/

/-- Whether a step stores its output in a variable, in whatever spelling. -/
def StoresIn (step : PlanStep) (name : String) : Prop := ∃ other ∈ step.outputs, lower other = lower name

/-- Whether a step stores its output under a name that differs from this one at most in the case of ASCII letters. -/
def StoresAlike (step : PlanStep) (name : String) : Prop := ∃ other ∈ step.outputs, sameAsciiLetters other name

instance (step : PlanStep) (name : String) : Decidable (StoresIn step name) :=
  inferInstanceAs (Decidable (∃ other ∈ step.outputs, lower other = lower name))

instance (step : PlanStep) (name : String) : Decidable (StoresAlike step name) :=
  inferInstanceAs (Decidable (∃ other ∈ step.outputs, sameAsciiLetters other name))

/-- The text of a variable; nothing when it is not set. -/
def textOf (v : Variables) (name : String) : String := (v.get? name).getD ""

/-- **The output is added once**: what a step with this result variable should leave. -/
structure AddsOnce (step : PlanStep) (name output : String) (before after : Variables) : Prop where
  /-- the result is the output alone if the step also stores it there or the result was empty, and has one line more
  otherwise -/
  value : after.get? name = some (if StoresIn step name ∨ textOf before name = "" then output
    else textOf before name ++ "\n" ++ output)
  /-- the output comes twice only if it was there before -/
  once : after.get? name = some (output ++ "\n" ++ output) → textOf before name = output
  /-- the output is the running input -/
  input : after.input = output

/-- What the result held is there to be read, or does not count: the step does not write the result itself, or it
stores its output there under a name that differs only in the case of ASCII letters, or there is no output, and
nothing to add it to. -/
def KeptApart (step : PlanStep) (name output : String) (before : Variables) : Prop :=
  StoresAlike step name ∨ (¬StoresIn step name ∧ lower name ≠ lower inputName) ∨
    output = "" ∧ (StoresIn step name ∨ textOf before name = "")

instance (step : PlanStep) (name output : String) (before : Variables) :
    Decidable (KeptApart step name output before) :=
  inferInstanceAs (Decidable (_ ∨ (_ ∧ _) ∨ _ ∧ (_ ∨ _)))

/-! ### What becomes of it -/

/-- The state when the result variable is read. -/
def stored (step : PlanStep) (output : String) (before : Variables) : Variables :=
  step.outputs.foldl (fun v name => v.set name output) (before.setInput output)

theorem StoresAlike.storesIn (h : StoresAlike step name) : StoresIn step name := by
  obtain ⟨other, hmem, halike⟩ := h
  exact ⟨other, hmem, lower_eq_of_sameAsciiLetters halike⟩

/-- The output is read back from a variable that the step has written; from any other what was held there. -/
theorem textOf_stored (step : PlanStep) (name output : String) (before : Variables) :
    textOf (stored step output before) name =
      if StoresIn step name ∨ lower name = lower inputName then output else textOf before name := by
  have hany : step.outputs.any (lower · = lower name) = true ↔ StoresIn step name := by
    simp [StoresIn]
  rw [textOf, stored, get?_foldl_store, setInput, get?_set]
  by_cases hstores : StoresIn step name
  · rw [if_pos (hany.mpr hstores), if_pos (.inl hstores), Option.getD_some]
  · rw [if_neg (mt hany.mp hstores)]
    by_cases hinput : lower name = lower inputName
    · rw [if_pos hinput, if_pos (.inr hinput), Option.getD_some]
    · rw [if_neg hinput, if_neg (not_or.mpr ⟨hstores, hinput⟩), textOf]

theorem record_of_appendTo (happend : step.appendTo = some name) (output : String) (before : Variables) :
    record step output before = appendOutput step name output (stored step output before) := by
  rw [record, happend, stored]

theorem get?_record (happend : step.appendTo = some name) (output : String) (before : Variables) :
    (record step output before).get? name =
      some (if textOf (stored step output before) name = "" ∨ StoresAlike step name then output
        else textOf (stored step output before) name ++ "\n" ++ output) := by
  have hany : step.outputs.any (sameAsciiLetters · name) = true ↔ StoresAlike step name := by
    simp [StoresAlike]
  have hcondition : ((textOf (stored step output before) name).isEmpty ||
      step.outputs.any (sameAsciiLetters · name)) = true ↔
        textOf (stored step output before) name = "" ∨ StoresAlike step name := by
    rw [Bool.or_eq_true, String.isEmpty_iff, hany]
  rw [record_of_appendTo happend, appendOutput]
  by_cases hcase : textOf (stored step output before) name = "" ∨ StoresAlike step name
  · rw [if_pos hcase]
    exact (congrArg (Variables.get? · name) (if_pos (hcondition.mpr hcase))).trans (get?_set_self ..)
  · rw [if_neg hcase]
    exact (congrArg (Variables.get? · name) (if_neg (mt hcondition.mp hcase))).trans (get?_set_self ..)

/-- What the step has written itself is read back, and the output added to it. -/
theorem get?_record_of_written (happend : step.appendTo = some name) (hnot : ¬StoresAlike step name)
    (hwritten : StoresIn step name ∨ lower name = lower inputName) (output : String) (before : Variables) :
    (record step output before).get? name =
      some (if output = "" then "" else output ++ "\n" ++ output) := by
  rw [get?_record happend, textOf_stored, if_pos hwritten]
  by_cases hempty : output = ""
  · rw [if_pos (.inl hempty), if_pos hempty, hempty]
  · rw [if_neg (not_or.mpr ⟨hempty, hnot⟩), if_neg hempty]

/-- The running input after a step whose result is another variable. -/
theorem input_record_of_ne (happend : step.appendTo = some name) (hname : lower inputName ≠ lower name)
    (output : String) (before : Variables) : (record step output before).input = output := by
  have hset : ∀ value, ((stored step output before).set name value).input = textOf (stored step output before) inputName :=
    fun value => by rw [input, get?_set, if_neg hname, textOf]
  have hinput : textOf (stored step output before) inputName = output := by
    rw [textOf_stored, if_pos (.inr rfl)]
  rw [record_of_appendTo happend, appendOutput]
  split
  · rw [hset, hinput]
  · rw [hset, hinput]

/-- The running input after a step whose result is the running input. -/
theorem input_eq_of_get? {v : Variables} {value : String} (hname : lower inputName = lower name)
    (hget : v.get? name = some value) : v.input = value := by
  rw [input, get?, hname]
  exact congrArg (Option.getD · "") hget

/-! ### When it is added once -/

theorem ne_twice (output : String) : output ≠ output ++ "\n" ++ output := by
  intro h
  have hlength := congrArg String.length h
  simp only [String.length_append] at hlength
  have hline : "\n".length = 1 := rfl
  omega

/-- Otherwise it is added to itself, as far as there is any. -/
theorem get?_record_of_not_keptApart (happend : step.appendTo = some name) (h : ¬KeptApart step name output before) :
    (record step output before).get? name = some (if output = "" then "" else output ++ "\n" ++ output) := by
  obtain ⟨hnot, hrest⟩ := not_or.mp h
  refine get?_record_of_written happend hnot ?_ output before
  by_contra hneither
  exact hrest (.inl (not_or.mp hneither))

/-- An output that is added once was kept apart. -/
theorem AddsOnce.keptApart (happend : step.appendTo = some name)
    (h : AddsOnce step name output before (record step output before)) : KeptApart step name output before := by
  by_contra hnot
  -- otherwise the result is the output twice, or nothing, and that is not what it should be
  have hget := get?_record_of_not_keptApart happend hnot
  have hvalue := Option.some.inj (h.value.symm.trans hget)
  by_cases hempty : output = ""
  · -- what the result held would have one line more
    have hheld : ¬(StoresIn step name ∨ textOf before name = "") := fun hcase => hnot (.inr (.inr ⟨hempty, hcase⟩))
    rw [if_neg hheld, if_pos hempty, hempty] at hvalue
    have hlength := congrArg String.length hvalue
    have hline : "\n".length = 1 := rfl
    simp only [String.length_append, String.length_empty] at hlength
    omega
  · rw [if_neg hempty] at hvalue hget
    by_cases hcase : StoresIn step name ∨ textOf before name = ""
    · rw [if_pos hcase] at hvalue
      exact ne_twice output hvalue
    · -- the result is the running input, and that should be the output
      have hname : lower inputName = lower name := by
        by_contra hother
        exact hnot (.inr (.inl ⟨(not_or.mp hcase).1, Ne.symm hother⟩))
      exact ne_twice output (h.input.symm.trans (input_eq_of_get? hname hget))

/-- A result with the right value holds the output twice only if it held it before. -/
theorem addsOnce_of_value (hvalue : after.get? name = some (if StoresIn step name ∨ textOf before name = "" then output
    else textOf before name ++ "\n" ++ output)) (hinput : after.input = output) :
    AddsOnce step name output before after := by
  refine ⟨hvalue, fun htwice => ?_, hinput⟩
  have hsame := Option.some.inj (hvalue.symm.trans htwice)
  split at hsame
  · exact absurd hsame (ne_twice output)
  · have hchars := congrArg String.toList hsame
    simp only [String.toList_append, List.append_assoc] at hchars
    exact String.toList_inj.mp (List.append_cancel_right hchars)

/-- An output that is kept apart is added once. -/
theorem KeptApart.addsOnce (happend : step.appendTo = some name) (h : KeptApart step name output before) :
    AddsOnce step name output before (record step output before) := by
  rcases h with halike | ⟨hstores, hname⟩ | ⟨rfl, hempty⟩
  · have hget : (record step output before).get? name = some output := by
      rw [get?_record happend, if_pos (.inr halike)]
    refine addsOnce_of_value (by rw [hget, if_pos (.inl halike.storesIn)]) ?_
    by_cases hname : lower inputName = lower name
    · exact input_eq_of_get? hname hget
    · exact input_record_of_ne happend hname output before
  · refine addsOnce_of_value ?_ (input_record_of_ne happend (Ne.symm hname) output before)
    rw [get?_record happend, textOf_stored, if_neg (not_or.mpr ⟨hstores, hname⟩)]
    simp only [mt StoresAlike.storesIn hstores, hstores, or_false, false_or]
  · refine addsOnce_of_value ?_ (input_record (.inr rfl) before)
    have hread : textOf (stored step "" before) name = "" := by
      rw [textOf_stored]
      split
      · rfl
      · next hneither => exact hempty.resolve_left fun hstores => hneither (.inl hstores)
    rw [get?_record happend, if_pos (.inl hread), if_pos hempty]

/-- **The output is added once** exactly if what the result held was kept apart from what the step writes. -/
theorem addsOnce_record_iff (happend : step.appendTo = some name) (output : String) (before : Variables) :
    AddsOnce step name output before (record step output before) ↔ KeptApart step name output before :=
  ⟨AddsOnce.keptApart happend, KeptApart.addsOnce happend⟩

/-- **In every turn of every run** the output of a step that adds to a result is added once exactly in these cases,
and to itself in all others. The turns are all the calls of the run but one that fails. -/
theorem run_addsOnce_iff (k : Kernel) (p : Plan) (initial : Variables) (log : List (Exchange Errands))
    (outcome : Except Failure PlanOutcome) (h : Ends (p.run k initial) log outcome) :
    ∃ turns last, Turns k initial turns last ∧ turns.map (·.step) <+: p.steps ∧ turns.map (·.exchange) <+: log ∧
      log.length ≤ turns.length + 1 ∧ (∀ o, outcome = .ok o → turns.map (·.step) = p.steps) ∧
      ∀ t ∈ turns, ∀ name, t.step.appendTo = some name →
        (AddsOnce t.step name t.output t.before t.after ↔ KeptApart t.step name t.output t.before) ∧
        (¬KeptApart t.step name t.output t.before →
          t.after.get? name = some (if t.output = "" then "" else t.output ++ "\n" ++ t.output)) := by
  have hturn : ∀ (t : Turn) (name : String), t.step.appendTo = some name →
      (AddsOnce t.step name t.output t.before t.after ↔ KeptApart t.step name t.output t.before) ∧
      (¬KeptApart t.step name t.output t.before →
        t.after.get? name = some (if t.output = "" then "" else t.output ++ "\n" ++ t.output)) :=
    fun t _ happend => ⟨addsOnce_record_iff happend t.output t.before, get?_record_of_not_keptApart happend⟩
  cases outcome with
  | ok o =>
    obtain ⟨turns, hcompleted⟩ := exists_completed h
    obtain ⟨last, hturns, -⟩ := hcompleted.inRow
    exact ⟨turns, last, hturns, ⟨[], by rw [hcompleted.steps, List.append_nil]⟩,
      ⟨[], by rw [hcompleted.calls, List.append_nil]⟩, by simp [hcompleted.calls], fun _ _ => hcompleted.steps,
      fun t _ => hturn t⟩
  | error e =>
    obtain ⟨turns, failing, before, hstopped⟩ := exists_stopped h
    obtain ⟨rest, hsteps⟩ := hstopped.steps
    obtain ⟨asked, hfails, hlog⟩ := hstopped.calls
    have hasked : asked.length ≤ 1 := by cases hfails <;> simp
    have hlength : log.length ≤ turns.length + 1 := by
      rw [hlog, List.length_append, List.length_map]
      omega
    exact ⟨turns, before, hstopped.inRow, ⟨_, hsteps.symm⟩, ⟨_, hlog.symm⟩, hlength, nofun, fun t _ => hturn t⟩

/-! ### An output that comes twice -/

/-- A turn of a step that stores its output under one spelling of a name and adds it to another. -/
def doubling : Turn :=
  let before := Variables.ofInput "in"
  let step : PlanStep := ⟨"text", "Upper", ∅, ["É"], some "é"⟩
  ⟨step, before, (Function.echo "Upper").inPlugin "text", argumentsFor step before, "out\n"⟩

theorem turns_doubling : Turns relays doubling.before [doubling] doubling.after :=
  .cons rfl (passes_argumentsFor _ _) (.nil _)

theorem ends_run_doubling :
    Ends (run relays { goal := "twice", steps := [doubling.step] } doubling.before) [doubling.exchange]
      (.ok (finish doubling.after (added [doubling]))) :=
  run_ok_iff.mpr ⟨_, _, rfl, rfl, turns_doubling, rfl⟩

/-- **An output that is stored in `É` and added to `é`** is found twice there, though the two are one variable. -/
theorem run_adds_twice :
    ¬∀ k p initial log outcome turns last, Ends (run k p initial) log outcome → Turns k initial turns last →
      turns.map (·.step) <+: p.steps → turns.map (·.exchange) <+: log →
        ∀ t ∈ turns, ∀ name, t.step.appendTo = some name → AddsOnce t.step name t.output t.before t.after := by
  intro law
  have honce := law _ _ _ _ _ [doubling] _ ends_run_doubling turns_doubling List.prefix_rfl List.prefix_rfl
    doubling List.mem_cons_self "é" rfl
  have happend : doubling.step.appendTo = some "é" := rfl
  exact absurd ((addsOnce_record_iff happend _ _).mp honce) (by decide +kernel)

theorem run_addsOnce_iff_doubling :
    let p : Plan := { goal := "twice", steps := [doubling.step] }
    let o := finish doubling.after (added [doubling])
    Ends (p.run relays doubling.before) [doubling.exchange] (.ok o) ∧
    ∃ turns last, Turns relays doubling.before turns last ∧ turns.map (·.step) <+: p.steps ∧
      turns.map (·.exchange) <+: [doubling.exchange] ∧ [doubling.exchange].length ≤ turns.length + 1 ∧
      (∀ other : PlanOutcome, Except.ok (ε := Failure) o = .ok other → turns.map (·.step) = p.steps) ∧
      ∀ t ∈ turns, ∀ name, t.step.appendTo = some name →
        (AddsOnce t.step name t.output t.before t.after ↔ KeptApart t.step name t.output t.before) ∧
        (¬KeptApart t.step name t.output t.before →
          t.after.get? name = some (if t.output = "" then "" else t.output ++ "\n" ++ t.output)) := by
  intro p o
  exact ⟨ends_run_doubling,
    run_addsOnce_iff relays p doubling.before [doubling.exchange] (.ok o) ends_run_doubling⟩

end Orchestration.Plan
