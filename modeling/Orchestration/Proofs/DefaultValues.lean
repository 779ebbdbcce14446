import Orchestration.Kernel.Function

/-!
# Default values

Before a function is called its parameters take their defaults one after another, so that one default may stand in the
way of the next, or not, if it is empty. Key by key it comes to this: what the caller gave stays unless it is empty;
then the first default that is not empty counts.

* `defaultsUnder` — the defaults that a list of parameters has for a key.
* `Supplied` — what the handler finds under a key, and `supplied_iff`, which says that nothing is left open by this.
* `held_fillDefaults` — defaults are supplied key by key.
* `Function.invoke_filled` — what the handler of a function is called with.
-/

namespace Orchestration

open Text

variable {parameters : List Parameter} {v filled : Variables} {key : String} {defaults : List String}
  {given found : Option String}

/-- The defaults under a key, in order: those of all parameters whose names are spellings of it. -/
def defaultsUnder (parameters : List Parameter) (key : String) : List String :=
  (parameters.filter fun p => lower p.name = key).filterMap (·.default)

theorem defaultsUnder_cons_self (p : Parameter) (parameters : List Parameter) :
    defaultsUnder (p :: parameters) (lower p.name) = p.default.toList ++ defaultsUnder parameters (lower p.name) := by
  rw [defaultsUnder, List.filter_cons_of_pos (by simp), defaultsUnder]
  cases hdefault : p.default with
  | none => exact List.filterMap_cons_none hdefault
  | some value => exact List.filterMap_cons_some hdefault

theorem defaultsUnder_cons_ne {p : Parameter} (h : lower p.name ≠ key) (parameters : List Parameter) :
    defaultsUnder (p :: parameters) key = defaultsUnder parameters key := by
  rw [defaultsUnder, List.filter_cons_of_neg (by simpa using h), defaultsUnder]

/-! ### One key -/

/-- What is given, unless that is nothing or empty; then the default. -/
def supply (given : Option String) (default : String) : Option String :=
  if given.getD "" = "" then some default else given

/-- **What is found under a key** by what was given there and the defaults. -/
inductive Supplied (defaults : List String) : Option String → Option String → Prop where
  /-- a text that is not empty stays -/
  | given {value : String} (text : value ≠ "") : Supplied defaults (some value) (some value)
  /-- in place of nothing or an empty text there is the first default that is not empty -/
  | first {given : Option String} {before after : List String} {value : String} (missing : given.getD "" = "")
      (split : defaults = before ++ value :: after) (text : value ≠ "") (skipped : ∀ d ∈ before, d = "") :
      Supplied defaults given (some value)
  /-- if all defaults are empty there is an empty text -/
  | empty {given : Option String} (missing : given.getD "" = "") (present : defaults ≠ [])
      (skipped : ∀ d ∈ defaults, d = "") : Supplied defaults given (some "")
  /-- without a default there is what was given -/
  | absent {given : Option String} (missing : given.getD "" = "") (absent : defaults = []) :
      Supplied defaults given given

theorem supply_of_missing (h : given.getD "" = "") (default : String) : supply given default = some default := if_pos h

theorem supply_of_text {value : String} (h : value ≠ "") (default : String) :
    supply (some value) default = some value := if_neg h

/-- No default takes the place of a text. -/
theorem foldl_supply_of_text {value : String} (h : value ≠ "") (defaults : List String) :
    defaults.foldl supply (some value) = some value := by
  induction defaults with
  | nil => rfl
  | cons d defaults ih => rw [List.foldl_cons, supply_of_text h, ih]

/-- Empty defaults leave room for the next. -/
theorem foldl_supply_of_skipped (hgiven : given.getD "" = "") (h : ∀ d ∈ defaults, d = "") :
    (defaults.foldl supply given).getD "" = "" := by
  induction defaults generalizing given with
  | nil => exact hgiven
  | cons d defaults ih =>
    obtain ⟨rfl, hrest⟩ := List.forall_mem_cons.mp h
    rw [List.foldl_cons, supply_of_missing hgiven]
    exact ih rfl hrest

/-- A default before the others: the first that is not empty is still the first, unless this one is. -/
theorem Supplied.cons (hgiven : given.getD "" = "") {d : String} (h : Supplied defaults (some d) found) :
    Supplied (d :: defaults) given found := by
  cases h with
  | given text => exact .first hgiven (List.nil_append _).symm text nofun
  | first missing split text skipped =>
    obtain rfl : d = "" := missing
    exact .first hgiven (congrArg _ split) text (List.forall_mem_cons.mpr ⟨rfl, skipped⟩)
  | empty missing _ skipped =>
    obtain rfl : d = "" := missing
    exact .empty hgiven (List.cons_ne_nil _ _) (List.forall_mem_cons.mpr ⟨rfl, skipped⟩)
  | absent missing absent =>
    obtain rfl : d = "" := missing
    rw [absent]
    exact .empty hgiven (List.cons_ne_nil _ _) (List.forall_mem_singleton.mpr rfl)

theorem supplied_foldl (defaults : List String) (given : Option String) :
    Supplied defaults given (defaults.foldl supply given) := by
  induction defaults generalizing given with
  | nil =>
    by_cases hgiven : given.getD "" = ""
    · exact .absent hgiven rfl
    · cases given with
      | none => exact absurd rfl hgiven
      | some value => exact .given hgiven
  | cons d defaults ih =>
    by_cases hgiven : given.getD "" = ""
    · rw [List.foldl_cons, supply_of_missing hgiven]
      exact (ih (some d)).cons hgiven
    · cases given with
      | none => exact absurd rfl hgiven
      | some value =>
        have htext : value ≠ "" := hgiven
        rw [foldl_supply_of_text htext]
        exact .given htext

/-- **Defaults supplied one after another** come to this, and to nothing else. -/
theorem supplied_iff : Supplied defaults given found ↔ found = defaults.foldl supply given := by
  constructor
  · intro h
    cases h with
    | given text => exact (foldl_supply_of_text text defaults).symm
    | @first _ before after value missing split text skipped =>
      rw [split, List.foldl_append, List.foldl_cons, supply_of_missing (foldl_supply_of_skipped missing skipped),
        foldl_supply_of_text text]
    | empty missing present skipped =>
      obtain ⟨before, last, rfl⟩ := (List.eq_nil_or_concat defaults).resolve_left present
      rw [List.concat_eq_append] at skipped ⊢
      obtain ⟨hbefore, hlast⟩ := List.forall_mem_append.mp skipped
      rw [List.foldl_append, List.foldl_cons, supply_of_missing (foldl_supply_of_skipped missing hbefore),
        List.forall_mem_singleton.mp hlast]
      rfl
    | absent missing absent => rw [absent, List.foldl_nil]
  · rintro rfl
    exact supplied_foldl defaults given

/-- What was found is found again. -/
theorem Supplied.again (h : Supplied defaults given found) : Supplied defaults found found := by
  cases h with
  | given text => exact .given text
  | first _ _ text _ => exact .given text
  | empty _ present skipped => exact .empty rfl present skipped
  | absent missing absent => exact .absent missing absent

/-! ### All keys -/

/-- **Variables with the defaults filled in**: under each key there is what is supplied by the defaults of the parameters
that go by it, and so what the caller gave if there are none. -/
def Filled (parameters : List Parameter) (v filled : Variables) : Prop :=
  ∀ key, Supplied (defaultsUnder parameters key) (v.held.get? key) (filled.held.get? key)

/-- A parameter supplies its default under its own key. -/
theorem held_fillDefault_self (v : Variables) (p : Parameter) :
    (fillDefault v p).held.get? (lower p.name) = p.default.toList.foldl supply (v.held.get? (lower p.name)) := by
  rw [fillDefault]
  cases p.default with
  | none => rfl
  | some value =>
    simp only [Option.toList_some, List.foldl_cons, List.foldl_nil, supply, Variables.get?, String.isEmpty_iff]
    split
    · rw [Variables.held_set, if_pos rfl]
    · rfl

/-- It changes nothing under any other. -/
theorem held_fillDefault_ne {p : Parameter} (h : lower p.name ≠ key) (v : Variables) :
    (fillDefault v p).held.get? key = v.held.get? key := by
  rw [fillDefault]
  cases p.default with
  | none => rfl
  | some value =>
    dsimp only
    split
    · rw [Variables.held_set, if_neg h.symm]
    · rfl

/-- **Defaults are supplied key by key.** -/
theorem held_fillDefaults (parameters : List Parameter) (v : Variables) (key : String) :
    (fillDefaults parameters v).held.get? key = (defaultsUnder parameters key).foldl supply (v.held.get? key) := by
  induction parameters generalizing v with
  | nil => rfl
  | cons p parameters ih =>
    have hrest : (fillDefaults (p :: parameters) v).held.get? key =
        (fillDefaults parameters (fillDefault v p)).held.get? key := rfl
    rw [hrest, ih]
    by_cases hkey : lower p.name = key
    · subst hkey
      rw [held_fillDefault_self, defaultsUnder_cons_self, List.foldl_append]
    · rw [held_fillDefault_ne hkey, defaultsUnder_cons_ne hkey]

/-- **Filling in the defaults** comes to this, and to nothing else. -/
theorem filled_iff : Filled parameters v filled ↔ filled = fillDefaults parameters v := by
  constructor
  · intro h
    refine Variables.ext_held fun key => ?_
    rw [held_fillDefaults]
    exact supplied_iff.mp (h key)
  · rintro rfl key
    exact supplied_iff.mpr (held_fillDefaults parameters v key)

/-- Variables with the defaults filled in are left as they are. -/
theorem Filled.fillDefaults_eq (h : Filled parameters v filled) : fillDefaults parameters filled = filled :=
  (filled_iff.mp fun key => (h key).again).symm

/-- **What the handler of a function is called with**: the caller's variables with the defaults of the parameters filled
in. Under each key, and so for a name in whatever spelling, a text of the caller that is not empty stays; otherwise there
is the first default that is not empty, or an empty text if all of them are, or what the caller gave if there is none.
Filling them in once more changes nothing. -/
theorem Function.invoke_filled (f : Function) (v : Variables) :
    f.invoke v = f.handler (fillDefaults f.view.parameters v) ∧
      (∀ filled, Filled f.view.parameters v filled ↔ filled = fillDefaults f.view.parameters v) ∧
      fillDefaults f.view.parameters (fillDefaults f.view.parameters v) = fillDefaults f.view.parameters v :=
  ⟨rfl, fun _ => filled_iff, (filled_iff.mpr rfl).fillDefaults_eq⟩

/-- A function with four parameters under one key, of which one has no default and one an empty one. -/
def adder : Function :=
  .native "add" "adds" [⟨"Amount", "", none⟩, ⟨"amount", "", some ""⟩, ⟨"AMOUNT", "", some "1"⟩,
    ⟨"amount", "", some "2"⟩, ⟨"unit", "", some ""⟩, ⟨"note", "", none⟩, ⟨"input", "", some "0"⟩] fun v => pure v.input

/-- The first default that says something counts, in any spelling, and not for an input that is there. -/
theorem Function.invoke_filled_adder :
    let v := Variables.ofList [("input", "5"), ("aMOUNT", "")]
    let filled := Variables.ofList [("input", "5"), ("amount", "1"), ("unit", "")]
    adder.invoke v = adder.handler filled ∧ Filled adder.view.parameters v filled := by
  intro v filled
  obtain ⟨hinvoke, hall, -⟩ := adder.invoke_filled v
  have hfilled : filled = fillDefaults adder.view.parameters v := by decide +kernel
  exact ⟨hfilled ▸ hinvoke, (hall filled).mpr hfilled⟩

end Orchestration
