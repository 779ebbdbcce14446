import Mathlib.Data.List.Induction
import Orchestration.Stepwise.Run

/-!
# Counts of actions

A stepwise result counts its actions by name. The counts are those of the turns: each name stands with the
number of turns that named it, and together they are the turns that named any.

* `Dictionary.total_insert` — the sum of a dictionary's values after an insertion.
* `Stepwise.countActions_concat` — one more turn counts its action once.
* `Stepwise.get?_countActions_iff`, `Stepwise.total_countActions` — what the counts are.
-/

namespace Orchestration

/-! ### Sums over dictionaries -/

/-- The sum of some values. -/
def sumOf (values : List Nat) : Nat := values.foldr (· + ·) 0

/-- The sum of the values of a dictionary. -/
def Dictionary.total (d : Dictionary Nat) : Nat := sumOf d.values

theorem sumOf_cons (value : Nat) (values : List Nat) : sumOf (value :: values) = value + sumOf values := rfl

theorem sumOf_insertEntry {name : String} {value : Nat} {entries : List (String × Nat)}
    (h : entries.Pairwise (fun a b => a.1 < b.1)) :
    sumOf ((insertEntry name value entries).map Prod.snd) + (lookupEntry name entries).getD 0 =
      sumOf (entries.map Prod.snd) + value := by
  induction entries with
  | nil =>
    have hnone : lookupEntry name ([] : List (String × Nat)) = none := rfl
    rw [hnone, Option.getD_none, insertEntry, List.map_cons, sumOf_cons]
    omega
  | cons e entries ih =>
    obtain ⟨first, held⟩ := e
    obtain ⟨hfirst, hentries⟩ := List.pairwise_cons.mp h
    rw [insertEntry]
    split
    · next hlt =>
      -- the name comes before all that are there
      have hnone : lookupEntry name ((first, held) :: entries) = none := by
        refine lookupEntry_eq_none_of_lt fun e he => ?_
        rcases List.mem_cons.mp he with rfl | he
        · exact hlt
        · exact String.lt_trans hlt (hfirst e he)
      rw [hnone, Option.getD_none, List.map_cons, sumOf_cons]
      omega
    · split
      · next heq =>
        subst heq
        rw [lookupEntry, if_pos rfl, Option.getD_some]
        simp only [List.map_cons, sumOf_cons]
        omega
      · next hne =>
        have hrest := ih hentries
        rw [lookupEntry, if_neg (Ne.symm hne)]
        simp only [List.map_cons, sumOf_cons]
        omega

/-- Inserting a value adds it in place of the one that was held. -/
theorem Dictionary.total_insert (d : Dictionary Nat) (name : String) (value : Nat) :
    (d.insert name value).total + (d.get? name).getD 0 = d.total + value :=
  sumOf_insertEntry d.ordered

namespace Stepwise

variable {steps : List Step} {step : Step}

/-! ### What the counts are -/

/-- In how many turns an action was named. -/
def actions (steps : List Step) : Nat := steps.countP (!·.action.isEmpty)

/-- In how many turns this very action was named. -/
def actionsNamed (name : String) (steps : List Step) : Nat := steps.countP (·.action = name)

/-- **One more turn** counts its action, if it has one, once more. -/
theorem countActions_concat :
    countActions (steps ++ [step]) =
      if step.action.isEmpty then countActions steps
      else (countActions steps).insert step.action (((countActions steps).get? step.action).getD 0 + 1) := by
  rw [countActions, List.filter_append, List.foldl_append]
  cases h : step.action.isEmpty with
  | true =>
    rw [List.filter_cons_of_neg (by simpa using h)]
    rfl
  | false =>
    rw [List.filter_cons_of_pos (by simpa using h)]
    rfl

theorem getD_countActions (steps : List Step) {name : String} (hname : name ≠ "") :
    ((countActions steps).get? name).getD 0 = actionsNamed name steps := by
  induction steps using List.reverseRecOn with
  | nil => rfl
  | append_singleton steps step ih =>
    rw [countActions_concat, actionsNamed, List.countP_append, ← actionsNamed, ← ih, List.countP_singleton]
    by_cases hempty : step.action.isEmpty
    · have hne : step.action ≠ name := by
        rintro rfl
        exact hname (by simpa using hempty)
      rw [if_pos hempty, if_neg (by simpa using hne), Nat.add_zero]
    · rw [if_neg hempty, Dictionary.get?_insert]
      by_cases hsame : name = step.action
      · subst hsame
        rw [if_pos rfl, if_pos (by simp), Option.getD_some]
      · rw [if_neg hsame, if_neg (by simpa using Ne.symm hsame), Nat.add_zero]

/-- Only what was named stands in the counts. -/
theorem countActions_positive {name : String} {n : Nat} (h : (countActions steps).get? name = some n) :
    name ≠ "" ∧ 0 < n := by
  induction steps using List.reverseRecOn with
  | nil => cases h
  | append_singleton steps step ih =>
    rw [countActions_concat] at h
    split at h
    · exact ih h
    · next hempty =>
      rw [Dictionary.get?_insert] at h
      split at h
      · next hsame =>
        obtain rfl := Option.some.inj h
        refine ⟨?_, Nat.succ_pos _⟩
        rintro rfl
        exact hempty (by rw [← hsame]; rfl)
      · exact ih h

/-- **Each count** is the number of turns with exactly that action; names of no turn are not counted. -/
theorem get?_countActions_iff {name : String} {n : Nat} :
    (countActions steps).get? name = some n ↔ name ≠ "" ∧ 0 < n ∧ n = actionsNamed name steps := by
  constructor
  · intro h
    obtain ⟨hname, hpos⟩ := countActions_positive h
    refine ⟨hname, hpos, ?_⟩
    rw [← getD_countActions steps hname, h, Option.getD_some]
  · rintro ⟨hname, hpos, rfl⟩
    have hcount := getD_countActions steps hname
    cases h : (countActions steps).get? name with
    | none => rw [h, Option.getD_none] at hcount; omega
    | some n => rw [h, Option.getD_some] at hcount; rw [hcount]

/-- **The counts add up** to the number of turns with an action. -/
theorem total_countActions : (countActions steps).total = actions steps := by
  induction steps using List.reverseRecOn with
  | nil => rfl
  | append_singleton steps step ih =>
    rw [countActions_concat, actions, List.countP_append, ← actions, ← ih, List.countP_singleton]
    by_cases hempty : step.action.isEmpty
    · rw [if_pos hempty, hempty]
      rfl
    · have hsum := Dictionary.total_insert (countActions steps) step.action
        (((countActions steps).get? step.action).getD 0 + 1)
      rw [if_neg hempty, if_pos (by simpa using hempty)]
      omega

end Stepwise

end Orchestration
