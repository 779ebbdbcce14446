import Orchestration.Proofs.OpenedTags
import Orchestration.Proofs.PlanMarkup

/-!
# Functions that are not there

A plan may call functions that a kernel does not have. Its reader fails at the first of them, or leaves them all out,
and these two ways are one: to leave them out is to read the plan that was written without them, and to fail at none is
to have left nothing out.

* `Element.missing?` — the name by which an element calls a function that is not there.
* `Element.stepIn?` — the step that an element describes.
* `stepsOf_lenient`, `stepsOf_strict` — all the steps that are described, and the first missing name before them.
* `readMarkup_strict`, `readers_cases` — so the strict reader is the lenient one, but for missing functions.
* `readMarkup_missing` — what the two readers make of one text.
-/

namespace Orchestration.Planner

variable {k : Kernel} {e : Element} {elements : List Element} {steps : List PlanStep} {text goal : String}

/-! ### Elements -/

namespace Element

/-- The name of a function that the element calls, but that is not there. -/
def missing? (k : Kernel) (e : Element) : Option String := e.function?.filter fun name => (found? k name).isNone

/-- The step that the element describes, if it calls a function that is there. -/
def stepIn? (k : Kernel) (e : Element) : Option PlanStep :=
  (e.function?.bind (found? k)).map fun f => stepOf f.view e.attributes

/-- Whether the element calls a function that is there. -/
def resolves (k : Kernel) (e : Element) : Bool := e.function?.any fun name => (found? k name).isSome

/-- An element calls a function by a name if its own is that name behind the mark. -/
theorem function?_eq_some_iff {name : String} : e.function? = some name ↔ e.name = functionMark ++ name := by
  rw [function?, Option.map_eq_some_iff, ← String.toList_inj, String.toList_append]
  constructor
  · rintro ⟨rest, hrest, rfl⟩
    rw [String.toList_ofList]
    exact (List.isPrefixOf?_eq_some_iff_append_eq.mp hrest).symm
  · intro hname
    exact ⟨name.toList, List.isPrefixOf?_eq_some_iff_append_eq.mpr hname.symm, String.ofList_toList⟩

theorem missing?_eq_some_iff {name : String} :
    e.missing? k = some name ↔ e.name = functionMark ++ name ∧ ∀ f, k.registry.find name ≠ .ok f := by
  rw [missing?, Option.filter_eq_some_iff, function?_eq_some_iff, Option.isNone_iff_eq_none,
    Option.eq_none_iff_forall_ne_some]
  simp only [ne_eq, found?_eq_some_iff]

theorem missing?_eq_none_iff :
    e.missing? k = none ↔ ∀ name, e.name = functionMark ++ name → ∃ f, k.registry.find name = .ok f := by
  rw [missing?, Option.filter_eq_none_iff]
  simp only [function?_eq_some_iff, ← found?_eq_some_iff, Option.isNone_iff_eq_none, ← ne_eq,
    Option.ne_none_iff_exists']

theorem stepIn?_eq_some_iff {s : PlanStep} : e.stepIn? k = some s ↔ e.Describes k s := by
  simp only [stepIn?, Option.map_eq_some_iff, Option.bind_eq_some_iff, found?_eq_some_iff, Describes]
  constructor
  · rintro ⟨f, ⟨name, hname, hfind⟩, rfl⟩
    exact ⟨name, f, hname, hfind, rfl⟩
  · rintro ⟨name, f, hname, hfind, rfl⟩
    exact ⟨f, ⟨name, hname, hfind⟩, rfl⟩

/-- **An element** calls no function, or one that is missing, or one that is there, and then it describes a step. -/
theorem call_cases (k : Kernel) (e : Element) :
    (e.function? = none ∧ e.missing? k = none ∧ e.stepIn? k = none) ∨
    (∃ name failure, e.function? = some name ∧ k.registry.find name = .error failure ∧ e.missing? k = some name ∧
      e.stepIn? k = none) ∨
    ∃ name f, e.function? = some name ∧ k.registry.find name = .ok f ∧ e.missing? k = none ∧
      e.stepIn? k = some (stepOf f.view e.attributes) := by
  cases hname : e.function? with
  | none => exact .inl ⟨rfl, by simp [missing?, hname], by simp [stepIn?, hname]⟩
  | some name =>
    cases hfind : k.registry.find name with
    | error failure =>
      have hnone : found? k name = none := by rw [found?, hfind, Except.toOption]
      exact .inr (.inl ⟨name, failure, rfl, hfind, by simp [missing?, hname, hnone], by simp [stepIn?, hname, hnone]⟩)
    | ok f =>
      have hsome : found? k name = some f := found?_eq_some_iff.mpr hfind
      exact .inr (.inr ⟨name, f, rfl, hfind, by simp [missing?, hname, hsome], by simp [stepIn?, hname, hsome]⟩)

theorem isSome_stepIn? : (e.stepIn? k).isSome = e.resolves k := by
  rw [stepIn?, resolves, Option.isSome_map, Option.isSome_bind]

end Element

/-! ### Steps -/

/-- **The lenient reader** reads all the steps that are described, and never fails. -/
theorem stepsOf_lenient (k : Kernel) (elements : List Element) :
    stepsOf k true elements = .ok (elements.filterMap (Element.stepIn? k)) := by
  induction elements with
  | nil => rfl
  | cons e elements ih =>
    rcases e.call_cases k with ⟨hname, -, hstep⟩ | ⟨name, failure, hname, hfind, -, hstep⟩ |
      ⟨name, f, hname, hfind, -, hstep⟩
    · rw [List.filterMap_cons_none hstep, ← ih]
      simp only [stepsOf, hname]
    · rw [List.filterMap_cons_none hstep, ← ih]
      simp only [stepsOf, hname, hfind, if_true]
    · rw [List.filterMap_cons_some hstep]
      simp only [stepsOf, hname, hfind, ih, Except.map]

/-- **The strict reader** fails at the first function that is missing, whatever comes after it, and else reads what the
lenient one does. -/
theorem stepsOf_strict (k : Kernel) (elements : List Element) :
    stepsOf k false elements =
      match elements.findSome? (Element.missing? k) with
      | some name => .error (.functionNotFound name)
      | none => stepsOf k true elements := by
  induction elements with
  | nil => rfl
  | cons e elements ih =>
    rw [List.findSome?_cons]
    rcases e.call_cases k with ⟨hname, hmissing, -⟩ | ⟨name, failure, hname, hfind, hmissing, -⟩ |
      ⟨name, f, hname, hfind, hmissing, -⟩
    · simp only [stepsOf, hname, hmissing, ih]
    · simp only [stepsOf, hname, hfind, hmissing, Bool.false_eq_true, if_false]
    · simp only [stepsOf, hname, hfind, hmissing, ih]
      -- a missing function further on is the failure of the whole
      cases elements.findSome? (Element.missing? k) <;> rfl

/-! ### Plans -/

/-- **The strict reader of plans** is the lenient one, but for the first function that is missing. -/
theorem readMarkup_strict (text goal : String) (k : Kernel) :
    readMarkup text goal k false =
      match ((planElements? text).getD []).findSome? (Element.missing? k) with
      | some name => .error (.functionNotFound name)
      | none => readMarkup text goal k true := by
  rw [readMarkup, readMarkup]
  cases planElements? text with
  | none => rfl
  | some elements =>
    simp only [Option.getD_some, stepsOf_strict]
    cases elements.findSome? (Element.missing? k) <;> rfl

/-- **The two readers do the same**, unless the strict one fails at the first function that is missing. -/
theorem readers_cases (text goal : String) (k : Kernel) :
    readMarkup text goal k false = readMarkup text goal k true ∨
    ∃ name earlier e later, readMarkup text goal k false = .error (.functionNotFound name) ∧
      planElements? text = some (earlier ++ e :: later) ∧ e.missing? k = some name ∧
      ∀ e' ∈ earlier, e'.missing? k = none := by
  have hreaders := readMarkup_strict text goal k
  cases hmissing : ((planElements? text).getD []).findSome? (Element.missing? k) with
  | none =>
    rw [hmissing] at hreaders
    exact .inl hreaders
  | some name =>
    rw [hmissing] at hreaders
    obtain ⟨earlier, e, later, helements, hfirst, hearlier⟩ := List.findSome?_eq_some_iff.mp hmissing
    have hbody : planElements? text = some (earlier ++ e :: later) := by
      cases hsome : planElements? text with
      | none => simp [hsome] at helements
      | some elements => rw [hsome, Option.getD_some] at helements; rw [helements]
    exact .inr ⟨name, earlier, e, later, hreaders, hbody, hfirst, hearlier⟩

/-- What the lenient reader makes of the elements of a plan. -/
theorem readMarkup_lenient (h : planElements? text = some elements) :
    readMarkup text goal k true =
      match elements.filterMap (Element.stepIn? k) with
      | [] => .error (.invalidPlan "plan contains no steps")
      | steps => .ok { goal, steps, outputs := (steps.filterMap (·.appendTo)).eraseDups } := by
  rw [readMarkup, h]
  simp only [stepsOf_lenient, Plan.ofSteps_eq]
  cases elements.filterMap (Element.stepIn? k) <;> rfl

/-- The lenient reader has one way to fail. -/
theorem exists_invalid {failure : PlanningError} (h : readMarkup text goal k true = .error failure) :
    ∃ detail, failure = .invalidPlan detail := by
  cases helements : planElements? text with
  | none =>
    rw [readMarkup, helements] at h
    exact ⟨_, (Except.error.inj h).symm⟩
  | some elements =>
    rw [readMarkup_lenient helements] at h
    split at h
    · exact ⟨_, (Except.error.inj h).symm⟩
    · cases h

/-- The steps of the lenient reader are those of the elements whose functions are there, and they are all that its plan
is made of. -/
theorem exists_steps_left (goal : String) (h : planElements? text = some elements) :
    ∃ steps, List.Forall₂ (Element.Describes k) (elements.filter (Element.resolves k)) steps ∧
      (steps ≠ [] → readMarkup text goal k true =
        .ok { goal, steps, outputs := (steps.filterMap (·.appendTo)).eraseDups }) ∧
      (steps = [] → readMarkup text goal k true = .error (.invalidPlan "plan contains no steps")) := by
  have hsteps : List.Forall₂ (Element.Describes k) (elements.filter (Element.resolves k))
      (elements.filterMap (Element.stepIn? k)) := by
    have heach := forall₂_filterMap_iff.mp (List.forall₂_eq_eq_eq ▸ rfl :
      List.Forall₂ (· = ·) (elements.filterMap (Element.stepIn? k)) (elements.filterMap (Element.stepIn? k)))
    simp only [Element.isSome_stepIn?] at heach
    refine heach.imp fun e s ⟨s', hs', heq⟩ => ?_
    exact Element.stepIn?_eq_some_iff.mp (heq ▸ hs')
  rw [readMarkup_lenient h]
  refine ⟨_, hsteps, fun hne => ?_, fun hnil => by rw [hnil]⟩
  split
  · next hnil => exact absurd hnil hne
  · rfl

/-- **To leave functions out** is to read the plan that was written without them. -/
theorem readMarkup_without {written : String} (h : planElements? text = some elements)
    (hwritten : planElements? written = some (elements.filter fun e => (e.missing? k).isNone)) :
    readMarkup written goal k false = readMarkup text goal k true := by
  have hnone : (elements.filter fun e => (e.missing? k).isNone).findSome? (Element.missing? k) = none := by
    simp [List.findSome?_eq_none_iff]
  have hsteps : (elements.filter fun e => (e.missing? k).isNone).filterMap (Element.stepIn? k) =
      elements.filterMap (Element.stepIn? k) := by
    rw [List.filterMap_filter]
    refine List.filterMap_congr fun e _ => ?_
    rcases e.call_cases k with ⟨-, hmissing, -⟩ | ⟨_, _, -, -, hmissing, hstep⟩ | ⟨_, _, -, -, hmissing, -⟩
    · simp [hmissing]
    · simp [hmissing, hstep]
    · simp [hmissing]
  simp only [readMarkup_strict, hwritten, Option.getD_some, hnone]
  rw [readMarkup_lenient hwritten, readMarkup_lenient h, hsteps]

/-- **What the two readers make of one text**, whatever it is: a plan without missing functions is the same to both.
Where the strict reader misses a function, that is the first in the plan that is not there, and the plan of the lenient
one has the steps of all the elements whose functions are there, in order, and nothing of the others, or else there is
none. In everything else they fail alike. -/
theorem readMarkup_missing (text goal : String) (k : Kernel) :
    let strict := readMarkup text goal k false
    let lenient := readMarkup text goal k true
    (∀ plan, strict = .ok plan → lenient = .ok plan) ∧
      (∀ name, strict = .error (.functionNotFound name) → ∃ earlier e later steps,
        planElements? text = some (earlier ++ e :: later) ∧
        (e.name = functionMark ++ name ∧ ∀ f, k.registry.find name ≠ .ok f) ∧
        (∀ e' ∈ earlier, ∀ name', e'.name = functionMark ++ name' → ∃ f, k.registry.find name' = .ok f) ∧
        List.Forall₂ (Element.Describes k) ((earlier ++ e :: later).filter (Element.resolves k)) steps ∧
        (steps ≠ [] → lenient = .ok { goal, steps, outputs := (steps.filterMap (·.appendTo)).eraseDups }) ∧
        (steps = [] → lenient = .error (.invalidPlan "plan contains no steps"))) ∧
      (∀ detail, strict = .error (.invalidPlan detail) → lenient = .error (.invalidPlan detail)) ∧
      (∀ failure, strict = .error failure →
        (∃ name, failure = .functionNotFound name) ∨ ∃ detail, failure = .invalidPlan detail) ∧
      ∀ elements written, planElements? text = some elements →
        planElements? written = some (elements.filter fun e => (e.missing? k).isNone) →
          readMarkup written goal k false = lenient := by
  intro strict lenient
  have hwithout (elements : List Element) (written : String) (helements : planElements? text = some elements)
      (hwritten : planElements? written = some (elements.filter fun e => (e.missing? k).isNone)) :
      readMarkup written goal k false = lenient := readMarkup_without helements hwritten
  rcases readers_cases text goal k with hsame | ⟨missing, earlier, e, later, hfails, hbody, hfirst, hearlier⟩
  · have hinvalid {failure : PlanningError} (h : strict = .error failure) : ∃ detail, failure = .invalidPlan detail :=
      exists_invalid (hsame.symm.trans h)
    refine ⟨fun plan h => hsame.symm.trans h, fun name h => ?_, fun detail h => hsame.symm.trans h,
      fun failure h => .inr (hinvalid h), hwithout⟩
    obtain ⟨detail, hdetail⟩ := hinvalid h
    cases hdetail
  · have honly {result : Except PlanningError Plan} (h : strict = result) :
        .error (.functionNotFound missing) = result := hfails.symm.trans h
    refine ⟨fun plan h => ?_, fun name h => ?_, fun detail h => ?_, fun failure h => ?_, hwithout⟩
    · cases honly h
    · obtain rfl : missing = name := by cases honly h; rfl
      obtain ⟨steps, hleft⟩ := exists_steps_left (k := k) goal hbody
      exact ⟨earlier, e, later, steps, hbody, Element.missing?_eq_some_iff.mp hfirst,
        fun e' he' => Element.missing?_eq_none_iff.mp (hearlier e' he'), hleft⟩
    · cases honly h
    · exact .inl ⟨missing, (Except.error.inj (honly h)).symm⟩

/-- A function that is missing between two jokes leaves nothing behind, not even its result variable; a plan of it alone
is none, as is a plan of nothing; and a plan without it is the same to both readers. -/
theorem readMarkup_missing_nope :
    let jokes : List Element := [⟨"function.Joke", [("appendToResult", "A")]⟩, ⟨"note", []⟩]
    let nope : Element := ⟨"function.Nope.Missing", [("appendToResult", "B")]⟩
    let text := "<plan><function.Joke appendToResult='A'/><note/><function.Nope.Missing appendToResult='B'/></plan>"
    let without := "<plan><function.Joke appendToResult='A'/><note/></plan>"
    let step : PlanStep := { plugin := globalPlugin, function := "Joke", appendTo := some "A" }
    let plan : Plan := { goal := "laugh", steps := [step], outputs := ["A"] }
    (readMarkup text "laugh" jester false = .error (.functionNotFound "Nope.Missing") ∧
        planElements? text = some (jokes ++ nope :: []) ∧
        (∃ earlier e later, planElements? text = some (earlier ++ e :: later) ∧
          e.name = functionMark ++ "Nope.Missing")) ∧
      readMarkup without "laugh" jester false = readMarkup text "laugh" jester true ∧
      readMarkup without "laugh" jester false = .ok plan ∧ readMarkup without "laugh" jester true = .ok plan ∧
      readMarkup "<plan/>" "laugh" jester true = .error (.invalidPlan "plan contains no steps") := by
  intro jokes nope text without step plan
  have hmissing : readMarkup text "laugh" jester false = .error (.functionNotFound "Nope.Missing") := by
    decide +kernel
  have helements : planElements? text = some (jokes ++ nope :: []) := by decide +kernel
  have hwithout : planElements? without = some ((jokes ++ nope :: []).filter fun e => (e.missing? jester).isNone) := by
    decide +kernel
  have hplan : readMarkup without "laugh" jester false = .ok plan := by decide +kernel
  have hempty : readMarkup "<plan/>" "laugh" jester false = .error (.invalidPlan "plan contains no steps") := by
    decide +kernel
  obtain ⟨-, hfirst, -, -, hleft⟩ := readMarkup_missing text "laugh" jester
  obtain ⟨earlier, e, later, -, hbody, hname, -⟩ := hfirst _ hmissing
  have hsame := (readMarkup_missing without "laugh" jester).1 _ hplan
  have hfails := (readMarkup_missing "<plan/>" "laugh" jester).2.2.1 _ hempty
  exact ⟨⟨hmissing, helements, earlier, e, later, hbody, hname.1⟩, hleft _ without helements hwithout, hplan, hsame,
    hfails⟩

end Orchestration.Planner
