import Orchestration.Proofs.PlanTurns

/-!
# The result of a run

A run gives back the text of the variable that collects results, if there is one, and the last output otherwise.
The variable is set from the outputs that steps add to results; where no step does, whatever stands in it
counts: what a step stored there under its name, or what the caller left there.

* `Plan.ownResult` — the result as far as it comes from the outputs that were added, or else the last one.
* `Plan.run_result_iff` — the result of a run is that exactly if some step adds to a result, or nothing else stands
  in the variable.
* `Plan.run_returns_leftover` — what an earlier run left there can be returned as the result of the next.
-/

namespace Orchestration.Plan

open Text Variables

variable {k : Kernel} {p : Plan} {initial state last : Variables} {log : List (Exchange Errands)}
  {turns : List Turn} {o : PlanOutcome}

/-! ### The running input and the collecting variable -/

/-- A variable after an output was stored under several names. -/
theorem get?_foldl_store (names : List String) (output : String) (v : Variables) (name : String) :
    (names.foldl (fun v n => v.set n output) v).get? name =
      if names.any (lower · = lower name) then some output else v.get? name := by
  induction names generalizing v with
  | nil => rfl
  | cons n names ih =>
    rw [List.foldl_cons, ih, List.any_cons, get?_set]
    by_cases hn : lower n = lower name
    · simp [hn]
    · simp [hn, Ne.symm hn]

/-- Whether a step stores its output in the collecting variable. -/
def collects (step : PlanStep) : Bool := step.outputs.any (lower · = lower resultName)

/-- A step that adds to no result leaves the collecting variable alone, unless it stores its output there. -/
theorem get?_resultName_record {step : PlanStep} (happend : step.appendTo = none) (output : String)
    (state : Variables) :
    (record step output state).get? resultName =
      if collects step then some output else state.get? resultName := by
  rw [record, happend, get?_foldl_store]
  have hinput : (state.setInput output).get? resultName = state.get? resultName :=
    (sameExcept_set (List.mem_singleton_self inputName) state output).get?
      (by simpa using lower_resultName_ne.symm)
  rw [hinput, collects]

/-- **The running input** after a step is its output, but for a step that adds some text to it as a result. -/
theorem input_record {step : PlanStep} {output : String} (h : step.appendTo = none ∨ output = "")
    (state : Variables) : (record step output state).input = output := by
  have hstored : (step.outputs.foldl (fun v name => v.set name output) (state.setInput output)).get? inputName =
      some output := by
    rw [get?_foldl_store, setInput, get?_set_self]
    split <;> rfl
  rw [record, input]
  cases happend : step.appendTo with
  | none => rw [hstored, Option.getD_some]
  | some name =>
    obtain rfl := h.resolve_left (by rw [happend]; exact Option.some_ne_none name)
    dsimp only [appendOutput]
    by_cases hname : lower inputName = lower name
    · -- the result is the running input itself, which is empty
      have hcurrent : (step.outputs.foldl (fun v name => v.set name "") (state.setInput "")).get? name =
          some "" := by
        rw [get?, ← hname]
        exact hstored
      have hempty : "".isEmpty = true := rfl
      rw [hcurrent, Option.getD_some, hempty, Bool.true_or, if_pos rfl, get?_set, if_pos hname,
        Option.getD_some]
    · split
      · rw [get?_set, if_neg hname, hstored, Option.getD_some]
      · rw [get?_set, if_neg hname, hstored, Option.getD_some]

/-! ### The result -/

/-- The output of the last turn. -/
def lastOutput (turns : List Turn) : String := (turns.getLast?.map (·.output)).getD ""

/-- **The result as the outputs make it**: those that were added to results, one on each line, or the last output
if that gives no text. -/
def ownResult (turns : List Turn) : String :=
  let collected := "\n".intercalate (added turns)
  if collected.isEmpty then lastOutput turns else collected

/-- What stands in the collecting variable after turns that add to no result: what the last of them stored there
under its name, or what stood there at first. -/
def standing (initial : Variables) (turns : List Turn) : Option String :=
  turns.foldl (fun held t => if collects t.step then some t.output else held) (initial.get? resultName)

theorem added_eq_nil_iff : added turns = [] ↔ ∀ t ∈ turns, t.step.appendTo = none := by
  simp [added]

theorem Turns.get?_resultName (h : Turns k state turns last) (hadded : ∀ t ∈ turns, t.step.appendTo = none) :
    last.get? resultName = standing state turns := by
  induction h with
  | nil => rfl
  | @cons t turns last _ _ _ ih =>
    rw [ih fun s hs => hadded s (List.mem_cons_of_mem _ hs), standing, standing, List.foldl_cons, Turn.after,
      get?_resultName_record (hadded t List.mem_cons_self)]

theorem Turns.eq_of_nil (h : Turns k state [] last) : last = state := by
  cases h
  rfl

theorem Turns.last_eq (h : Turns k state turns last) {t : Turn} (ht : turns.getLast? = some t) :
    last = t.after := by
  induction h with
  | nil => cases ht
  | @cons s turns last _ _ hrest ih =>
    cases turns with
    | nil =>
      obtain rfl := Option.some.inj ht
      exact hrest.eq_of_nil
    | cons next rest =>
      rw [List.getLast?_cons_cons] at ht
      exact ih ht

/-- Lines that make no text at all are no lines, or a single empty one. -/
theorem eq_empty_of_intercalate {texts : List String} (h : "\n".intercalate texts = "") {text : String}
    (htext : text ∈ texts) : text = "" := by
  have hchars : "\n".toList.intercalate (texts.map String.toList) = [] := by
    rw [← String.toList_intercalate, h]
    rfl
  match texts, htext with
  | [only], htext =>
    obtain rfl := List.mem_singleton.mp htext
    rw [List.map_singleton, List.intercalate_singleton] at hchars
    exact String.toList_inj.mp hchars
  | first :: second :: rest, _ =>
    rw [List.map_cons, List.map_cons, List.intercalate_cons_cons, List.append_assoc] at hchars
    exact absurd (List.append_eq_nil_iff.mp hchars).2 (List.cons_ne_nil _ _)

/-- **The running input** at the end is the last output, unless there is a text of added outputs. -/
theorem Turns.input_eq (h : Turns k state turns last) (hturns : turns ≠ [])
    (hcollected : "\n".intercalate (added turns) = "") : last.input = lastOutput turns := by
  cases ht : turns.getLast? with
  | none => exact absurd (List.getLast?_eq_none_iff.mp ht) hturns
  | some t =>
    rw [lastOutput, ht, h.last_eq ht]
    refine input_record ?_ t.before
    cases happend : t.step.appendTo with
    | none => exact .inl rfl
    | some name =>
      have hisSome : t.step.appendTo.isSome = true := by
        rw [happend]
        rfl
      have hmem : t.output ∈ added turns :=
        List.mem_map_of_mem (List.mem_filter.mpr ⟨List.mem_of_getLast? ht, hisSome⟩)
      exact .inr (eq_empty_of_intercalate hcollected hmem)

/-- **What a run gives back**: the result as its outputs make it, unless no step added to a result and some
text stands in the collecting variable all the same. -/
theorem Turns.result_eq (h : Turns k initial turns last) (hturns : turns ≠ []) :
    (finish last (added turns)).result =
      if added turns = [] ∧ (standing initial turns).getD "" ≠ "" then (standing initial turns).getD ""
      else ownResult turns := by
  rw [finish, ownResult]
  by_cases hadded : added turns = []
  · -- the variable is not set at the end, and what stands in it is read
    have hstanding := h.get?_resultName (added_eq_nil_iff.mp hadded)
    have hinput := h.input_eq hturns (by rw [hadded]; rfl)
    simp only [hadded, List.isEmpty_nil, if_true, hstanding, hinput, String.isEmpty_iff]
    by_cases htext : (standing initial turns).getD "" = ""
    · simp [htext]
    · simp [htext]
  · -- the variable is set, and the running input was left alone by that
    have hcollected : (last.set resultName ("\n".intercalate (added turns))).get? resultName =
        some ("\n".intercalate (added turns)) := get?_set_self ..
    have hinput : (last.set resultName ("\n".intercalate (added turns))).input = last.input := by
      have hframe := sameExcept_set (List.mem_singleton_self resultName) last ("\n".intercalate (added turns))
      rw [input, hframe.get? (by simpa using lower_resultName_ne), input]
    simp only [List.isEmpty_iff, hadded, if_false, hcollected, Option.getD_some, false_and, hinput,
      String.isEmpty_iff]
    by_cases htext : "\n".intercalate (added turns) = ""
    · simp only [htext, if_true, h.input_eq hturns htext]
    · simp only [htext, if_false]

/-- **The result of a run is its own** exactly if a step adds to a result, or no text but the last output stands
in the collecting variable; otherwise it is that text. -/
theorem run_result_iff (k : Kernel) (p : Plan) (initial : Variables) (log : List (Exchange Errands))
    (o : PlanOutcome) (hsteps : p.steps ≠ []) (h : Ends (p.run k initial) log (.ok o)) :
    ∃ turns last, turns.map (·.step) = p.steps ∧ log = turns.map (·.exchange) ∧
      Turns k initial turns last ∧
      (o.result = ownResult turns ↔ added turns ≠ [] ∨ (standing initial turns).getD "" = "" ∨
        (standing initial turns).getD "" = lastOutput turns) ∧
      (o.result ≠ ownResult turns → o.result = (standing initial turns).getD "") := by
  obtain ⟨turns, last, hplan, hlog, hturns, rfl⟩ := run_ok_iff.mp h
  have hne : turns ≠ [] := by
    rintro rfl
    exact hsteps hplan.symm
  refine ⟨turns, last, hplan, hlog, hturns, ?_⟩
  have hresult := hturns.result_eq hne
  split at hresult
  · next hstands =>
    obtain ⟨hadded, htext⟩ := hstands
    have hown : ownResult turns = lastOutput turns := by
      rw [ownResult, hadded]
      rfl
    rw [hresult, hown]
    exact ⟨⟨fun hlast => .inr (.inr hlast), fun hcase => (hcase.resolve_left (absurd hadded)).resolve_left htext⟩,
      fun _ => rfl⟩
  · next hstands =>
    refine ⟨⟨fun _ => ?_, fun _ => hresult⟩, fun hother => absurd hresult hother⟩
    by_cases hadded : added turns = []
    · exact .inr (.inl (of_not_not fun htext => hstands ⟨hadded, htext⟩))
    · exact .inl hadded

/-! ### A result that is not its own -/

/-- A turn that adds its output to a result. -/
def noting : Turn :=
  let step : PlanStep := ⟨"text", "Upper", ∅, [], some "RESULT__A"⟩
  let before := Variables.ofInput "first"
  ⟨step, before, (Function.echo "Upper").inPlugin "text", argumentsFor step before, "old"⟩

/-- A turn of another run, on the variables that the first has left. -/
def following : Turn :=
  let step : PlanStep := ⟨"text", "Upper", .ofList [("input", "second")], [], none⟩
  let before := (finish noting.after (added [noting])).state
  ⟨step, before, (Function.echo "Upper").inPlugin "text", argumentsFor step before, "new"⟩

theorem turns_following : Turns relays following.before [following] following.after :=
  .cons rfl (passes_argumentsFor _ _) (.nil _)

theorem ends_run_following :
    Ends (run relays { goal := "second", steps := [following.step] } following.before) [following.exchange]
      (.ok (finish following.after [])) :=
  run_ok_iff.mpr ⟨_, _, rfl, rfl, turns_following, rfl⟩

/-- **What an earlier run left** can be the result of the next: that one answers `new` and adds nothing to a
result, and `old` is returned. -/
theorem run_returns_leftover :
    ¬∀ k p initial log o turns last, p.steps ≠ [] → Ends (run k p initial) log (.ok o) →
      turns.map (·.step) = p.steps → log = turns.map (·.exchange) → Turns k initial turns last →
        o.result = ownResult turns := by
  intro law
  have hresult := law _ _ _ _ _ [following] _ (List.cons_ne_nil _ _) ends_run_following rfl rfl turns_following
  exact absurd hresult (by decide +kernel)

theorem run_result_iff_following :
    let p : Plan := { goal := "second", steps := [following.step] }
    let o := finish following.after []
    p.steps ≠ [] ∧ Ends (p.run relays following.before) [following.exchange] (.ok o) ∧
    ∃ turns last, turns.map (·.step) = p.steps ∧ [following.exchange] = turns.map (·.exchange) ∧
      Turns relays following.before turns last ∧
      (o.result = ownResult turns ↔ added turns ≠ [] ∨ (standing following.before turns).getD "" = "" ∨
        (standing following.before turns).getD "" = lastOutput turns) ∧
      (o.result ≠ ownResult turns → o.result = (standing following.before turns).getD "") := by
  intro p o
  have hsteps : p.steps ≠ [] := List.cons_ne_nil _ _
  exact ⟨hsteps, ends_run_following,
    run_result_iff relays p following.before [following.exchange] o hsteps ends_run_following⟩

end Orchestration.Plan
