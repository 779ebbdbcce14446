import Mathlib.Algebra.GroupWithZero.Nat
import Mathlib.Data.List.Forall2
import Mathlib.Data.List.Induction
import Mathlib.Order.Monotone.Defs
import Mathlib.Order.Nat
import Orchestration.Proofs.Scanning
import Orchestration.Stepwise.Scratchpad

/-!
# The turns that a scratchpad keeps

A scratchpad is written from the latest turn back, and the writing stops where what was taken exceeds the budget. What
is left is a run of turns up to the latest: it begins with the first turn behind which everything fits.

* `Scratchpad.Fits` — the budget is kept by all that stands behind a turn.
* `Scratchpad.firstKept` — the first turn that is kept.
* `Scratchpad.exists_recent` — what is kept, by induction on the turns from the latest on.
* `Scratchpad.ShowsTurns` — the lines of turns, whatever writes them.
* `Scratchpad.write_kept` — what is written, which turns those are, and how much it is.
-/

namespace Orchestration.Scratchpad

open Text

/-! ### Sizes -/

@[simp] theorem size_nil : size [] = 0 := rfl

theorem size_append (first later : List String) : size (first ++ later) = size first + size later := by
  rw [size, size, size, List.map_append, List.foldr_append]
  induction first.map (·.utf8ByteSize) with
  | nil => exact (Nat.zero_add _).symm
  | cons n ns ih => rw [List.foldr_cons, List.foldr_cons, ih, Nat.add_assoc]

/-- The heading has no blanks at its ends. -/
theorem tight_heading : Tight heading.toList := by
  refine ⟨?_, ?_⟩ <;> rintro _ ⟨⟩ <;> decide

/-! ### Numbered turns -/

variable {steps : List Step} {maxTokens : Nat}

theorem numbered_eq (index : Nat) (steps : List Step) :
    numbered index steps = (steps.zipIdx index).map Prod.swap := by
  induction steps generalizing index with
  | nil => rfl
  | cons s steps ih =>
    rw [numbered, ih, List.zipIdx_cons, List.map_cons]
    rfl

@[simp] theorem length_numbered (index : Nat) (steps : List Step) : (numbered index steps).length = steps.length := by
  rw [numbered_eq, List.length_map, List.length_zipIdx]

/-- The lines of numbered turns, one turn after the other. -/
def linesOfAll (turns : List (Nat × Step)) : List String := turns.flatMap fun turn => linesOf turn.1 turn.2

theorem linesOfAll_append (earlier later : List (Nat × Step)) :
    linesOfAll (earlier ++ later) = linesOfAll earlier ++ linesOfAll later := List.flatMap_append

theorem linesOfAll_singleton (turn : Nat × Step) : linesOfAll [turn] = linesOf turn.1 turn.2 :=
  List.flatMap_singleton _ _

/-- **What is taken of some turns**, by induction on them from the latest on: those from one on, namely the first behind
which everything fits. -/
theorem exists_recent (budget taken : Nat) (turns : List (Nat × Step)) :
    ∃ k ≤ turns.length, recent budget taken turns.reverse = linesOfAll (turns.drop k) ∧
      ∀ i < turns.length, k ≤ i ↔ taken + size (linesOfAll (turns.drop (i + 1))) ≤ budget := by
  induction turns using List.reverseRecOn generalizing taken with
  | nil => exact ⟨0, Nat.le_refl 0, rfl, fun _ hi => absurd hi (Nat.not_lt_zero _)⟩
  | append_singleton earlier latest ih =>
    obtain ⟨index, s⟩ := latest
    rw [List.reverse_append, List.reverse_singleton, List.singleton_append, recent, List.length_append,
      List.length_singleton]
    by_cases hfull : budget < taken
    · -- the budget is exceeded already, and so nothing fits behind any turn
      refine ⟨earlier.length + 1, Nat.le_refl _, ?_, fun i hi => ?_⟩
      · rw [if_pos hfull, List.drop_eq_nil_of_le (by simp)]
        rfl
      · refine iff_of_false (by omega) ?_
        omega
    · obtain ⟨k, hk, hrecent, hfits⟩ := ih (taken + size (linesOf index s))
      refine ⟨k, Nat.le_succ_of_le hk, ?_, fun i hi => ?_⟩
      · simp only [if_neg hfull, hrecent, List.drop_append_of_le_length hk, linesOfAll_append, linesOfAll_singleton]
      · rcases Nat.lt_succ_iff_lt_or_eq.mp hi with hi | rfl
        · -- behind an earlier turn stands the latest as well
          rw [hfits i hi, List.drop_append_of_le_length (by omega), linesOfAll_append, linesOfAll_singleton,
            size_append, Nat.add_right_comm, Nat.add_assoc]
        · rw [List.drop_eq_nil_of_le (by simp)]
          refine iff_of_true hk ?_
          simpa [linesOfAll] using hfull

/-! ### The first turn that is kept -/

/-- The lines above the turns. -/
def header (steps : List Step) : List String := heading :: (steps.head?.map thoughtLine).toList

/-- The lines of the turns from the given number on. -/
def linesFrom (k : Nat) (steps : List Step) : List String := linesOfAll ((numbered 0 steps).drop k)

/-- **The budget is kept** by the lines above the turns and all that stands behind the turn with the number. -/
def Fits (maxTokens : Nat) (steps : List Step) (k : Nat) : Prop :=
  size (header steps) + size (linesFrom (k + 1) steps) ≤ 3 * maxTokens

instance (maxTokens : Nat) (steps : List Step) (k : Nat) : Decidable (Fits maxTokens steps k) :=
  inferInstanceAs (Decidable (_ ≤ _))

/-- The number of the first turn that is kept: the least behind which everything fits. If there is none, it is the
number of turns, and none is kept. -/
def firstKept (maxTokens : Nat) (steps : List Step) : Nat :=
  (List.range steps.length).findIdx fun k => Fits maxTokens steps k

theorem firstKept_le_length : firstKept maxTokens steps ≤ steps.length := by
  have h : firstKept maxTokens steps ≤ (List.range steps.length).length := List.findIdx_le_length
  rwa [List.length_range] at h

theorem fits_firstKept (h : firstKept maxTokens steps < steps.length) :
    Fits maxTokens steps (firstKept maxTokens steps) := by
  have hrange : (List.range steps.length).findIdx (fun k => Fits maxTokens steps k) < (List.range steps.length).length := by
    rwa [List.length_range]
  have hfound := List.findIdx_getElem (w := hrange)
  simpa [firstKept] using hfound

theorem not_fits_of_lt {k : Nat} (h : k < firstKept maxTokens steps) : ¬Fits maxTokens steps k := by
  have hfound := List.not_of_lt_findIdx h
  simpa using hfound

/-- A turn from which on things fit is the first that is kept. -/
theorem eq_firstKept {k : Nat} (hk : k ≤ steps.length) (h : ∀ i < steps.length, k ≤ i ↔ Fits maxTokens steps i) :
    k = firstKept maxTokens steps := by
  refine Nat.le_antisymm ?_ ?_
  · rcases Nat.lt_or_eq_of_le firstKept_le_length with hlt | heq
    · exact (h _ hlt).mpr (fits_firstKept hlt)
    · exact hk.trans_eq heq.symm
  · refine Nat.le_of_not_lt fun hlt => ?_
    exact not_fits_of_lt hlt ((h k (hlt.trans_le firstKept_le_length)).mp le_rfl)

/-- **What is written** of the turns: those from the first that is kept on; and behind that one and every later one, and
behind no earlier one, everything fits. -/
theorem write_eq (first : Step) (later : List Step) (maxTokens : Nat) :
    let steps := first :: later
    write steps maxTokens = trim ("\n".intercalate (header steps ++ linesFrom (firstKept maxTokens steps) steps)) ∧
      ∀ k < steps.length, firstKept maxTokens steps ≤ k ↔ Fits maxTokens steps k := by
  intro steps
  obtain ⟨k, hk, hrecent, hfits⟩ := exists_recent (3 * maxTokens) (size (header steps)) (numbered 0 steps)
  rw [length_numbered] at hk hfits
  obtain rfl := eq_firstKept hk hfits
  refine ⟨?_, hfits⟩
  rw [linesFrom, ← hrecent]
  rfl

/-- A larger budget is kept by whatever keeps a smaller one. -/
theorem Fits.mono {k more : Nat} (h : Fits maxTokens steps k) (hmore : maxTokens ≤ more) : Fits more steps k :=
  Nat.le_trans h (Nat.mul_le_mul_left 3 hmore)

theorem firstKept_anti {more : Nat} (hmore : maxTokens ≤ more) : firstKept more steps ≤ firstKept maxTokens steps := by
  refine Nat.le_of_not_lt fun hlt => not_fits_of_lt hlt ?_
  exact (fits_firstKept (hlt.trans_le firstKept_le_length)).mono hmore

/-- The lines that are written for turns, turn by turn. -/
def turnsOf (steps : List Step) : List (List String) := steps.zipIdx.map fun turn => linesOf turn.2 turn.1

@[simp] theorem length_turnsOf (steps : List Step) : (turnsOf steps).length = steps.length := by
  rw [turnsOf, List.length_map, List.length_zipIdx]

theorem linesFrom_eq_flatten (k : Nat) (steps : List Step) :
    linesFrom k steps = ((turnsOf steps).drop k).flatten := by
  rw [linesFrom, linesOfAll, numbered_eq, turnsOf, ← List.map_drop, ← List.map_drop, List.flatMap_map]
  rfl

/-- The lines from a turn on are its own and those from the next on. -/
theorem linesFrom_eq_append {k : Nat} (h : k < steps.length) :
    linesFrom k steps = linesOf k steps[k] ++ linesFrom (k + 1) steps := by
  have hturn : (turnsOf steps)[k]? = some (linesOf k steps[k]) := by simp [turnsOf, h]
  rw [linesFrom_eq_flatten, List.drop_eq_getElem?_toList_append, hturn, linesFrom_eq_flatten]
  rfl

theorem linesFrom_length : linesFrom steps.length steps = [] := by
  rw [linesFrom, List.drop_eq_nil_of_le (by rw [length_numbered])]
  rfl

/-- None is kept just if the lines above the turns exceed the budget by themselves. -/
theorem firstKept_eq_length_iff (hne : steps ≠ []) :
    firstKept maxTokens steps = steps.length ↔ 3 * maxTokens < size (header steps) := by
  have hpos : 0 < steps.length := List.length_pos_iff.mpr hne
  -- behind the latest turn there is nothing
  have hlatest : Fits maxTokens steps (steps.length - 1) ↔ size (header steps) ≤ 3 * maxTokens := by
    rw [Fits, Nat.sub_add_cancel hpos, linesFrom_length, size_nil, Nat.add_zero]
  obtain ⟨first, later, rfl⟩ := List.exists_cons_of_ne_nil hne
  have hkept := (write_eq first later maxTokens).2 ((first :: later).length - 1) (by omega)
  rw [hlatest] at hkept
  have hle : firstKept maxTokens (first :: later) ≤ (first :: later).length := firstKept_le_length
  omega

/-! ### What is shown of a turn -/

/-- **A line in front of others**, which stands there if it is asked for, and only then. -/
inductive InFront (asked : Prop) (line : String) (behind : List String) : List String → Prop where
  /-- the line stands in front -/
  | shown (h : asked) : InFront asked line behind (line :: behind)
  /-- the others stand alone -/
  | left (h : ¬asked) : InFront asked line behind behind

/-- **The lines of a turn** with the given number: what was thought, but not in the first turn, whose thought stands above
all turns; then the action and its arguments, if one was taken; and then what was observed, if anything was. -/
def ShowsTurn (index : Nat) (s : Step) (lines : List String) : Prop :=
  ∃ observed acted,
    InFront (s.observation ≠ "") ("[OBSERVATION] " ++ s.observation) [] observed ∧
    InFront (s.action ≠ "") ("[ACTION] \x7b\"action\": \"" ++ s.action ++ "\",\"action_variables\": " ++
      (Json.ofTexts s.actionVariables).compact ++ "\x7d") observed acted ∧
    InFront (index ≠ 0) ("[THOUGHT] " ++ s.thought) acted lines

/-- **The lines of turns**, one turn after the other. -/
def ShowsTurns (steps : List Step) (turns : List (List String)) : Prop :=
  List.Forall₂ (fun turn lines => ShowsTurn turn.2 turn.1 lines) steps.zipIdx turns

/-- How many bytes lines have, the ends of the lines aside. -/
def bytes (lines : List String) : Nat := (lines.map (·.utf8ByteSize)).sum

theorem InFront.unique {asked : Prop} {line : String} {behind lines others : List String}
    (h : InFront asked line behind lines) (hothers : InFront asked line behind others) : lines = others := by
  cases h with
  | shown h =>
    cases hothers with
    | shown => rfl
    | left hnot => exact absurd h hnot
  | left h =>
    cases hothers with
    | shown hasked => exact absurd hasked h
    | left => rfl

/-- A turn has its lines and no others. -/
theorem ShowsTurn.unique {index : Nat} {s : Step} {lines others : List String} (h : ShowsTurn index s lines)
    (hothers : ShowsTurn index s others) : lines = others := by
  obtain ⟨observed, acted, hobserved, hacted, hlines⟩ := h
  obtain ⟨observed', acted', hobserved', hacted', hlines'⟩ := hothers
  obtain rfl := hobserved.unique hobserved'
  obtain rfl := hacted.unique hacted'
  exact hlines.unique hlines'

theorem ShowsTurns.unique {turns others : List (List String)} (h : ShowsTurns steps turns)
    (hothers : ShowsTurns steps others) : turns = others := by
  rw [ShowsTurns] at h hothers
  generalize steps.zipIdx = numbered at h hothers
  induction h generalizing others with
  | nil => cases hothers; rfl
  | cons hturn _ ih =>
    cases hothers with
    | cons hother hrest => rw [hturn.unique hother, ih hrest]

theorem inFront_ite {asked skipped : Prop} [Decidable skipped] (h : asked ↔ ¬skipped) (line : String)
    (behind : List String) : InFront asked line behind ((if skipped then [] else [line]) ++ behind) := by
  split
  case isTrue hskipped => exact .left fun hasked => h.mp hasked hskipped
  case isFalse hasked => exact .shown (h.mpr hasked)

theorem thoughtLine_eq (s : Step) : thoughtLine s = "[THOUGHT] " ++ s.thought := by
  have hmark : Step.thoughtMark ++ " " = "[THOUGHT] " := by decide
  rw [thoughtLine, hmark]

/-- **The lines that are written** for a turn are its lines. -/
theorem showsTurn_linesOf (index : Nat) (s : Step) : ShowsTurn index s (linesOf index s) := by
  have hobservation : observationLine s = "[OBSERVATION] " ++ s.observation := by
    have hmark : Step.observationMark ++ " " = "[OBSERVATION] " := by decide
    rw [observationLine, hmark]
  have haction : actionLine s = "[ACTION] \x7b\"action\": \"" ++ s.action ++ "\",\"action_variables\": " ++
      (Json.ofTexts s.actionVariables).compact ++ "\x7d" := by
    have hmark : Step.actionMark ++ " \x7b\"action\": \"" = "[ACTION] \x7b\"action\": \"" := by decide
    rw [actionLine, hmark]
  have htext (text : String) : text ≠ "" ↔ ¬text.isEmpty := by simp
  have hlines : linesOf index s = (if index = 0 then [] else [thoughtLine s]) ++
      ((if s.action.isEmpty then [] else [actionLine s]) ++
        ((if s.observation.isEmpty then [] else [observationLine s]) ++ [])) := by
    rw [linesOf, List.append_nil, List.append_assoc]
  rw [hlines, thoughtLine_eq, haction, hobservation]
  exact ⟨_, _, inFront_ite (htext _) _ _, inFront_ite (htext _) _ _, inFront_ite Iff.rfl _ _⟩

theorem showsTurns_turnsOf (steps : List Step) : ShowsTurns steps (turnsOf steps) := by
  rw [ShowsTurns, turnsOf, List.forall₂_map_right_iff]
  exact List.forall₂_same.mpr fun turn _ => showsTurn_linesOf turn.2 turn.1

theorem size_eq_bytes (lines : List String) : size lines = bytes lines := rfl

theorem fits_iff {k : Nat} : Fits maxTokens steps k ↔
    bytes (header steps ++ ((turnsOf steps).drop (k + 1)).flatten) ≤ 3 * maxTokens := by
  rw [Fits, ← size_append, linesFrom_eq_flatten, size_eq_bytes]

theorem bytes_append (lines later : List String) : bytes (lines ++ later) = bytes lines + bytes later :=
  size_append lines later

/-- Where everything behind a turn fits, all is too much by no more than that turn. -/
theorem bytes_drop_le {above : List String} {turns : List (List String)} {k room : Nat} (h : k < turns.length)
    (hfits : bytes (above ++ (turns.drop (k + 1)).flatten) ≤ room) :
    bytes (above ++ (turns.drop k).flatten) ≤ room + bytes turns[k] := by
  rw [bytes_append] at hfits
  rw [List.drop_eq_getElem_cons h, List.flatten_cons, bytes_append, bytes_append]
  omega

/-- **The scratchpad keeps the latest turns**, for any turns and any budget: under the heading and the first thought
stand the lines of the turns from some turn up to the latest, in order. A turn is kept just if everything behind it
fits, and so none is kept if the first two lines do not fit by themselves; what is kept is too much by no more than the
first turn of it; and with more room, no fewer turns are kept. -/
theorem write_kept (first : Step) (later : List Step) :
    let above := [heading, "[THOUGHT] " ++ first.thought]
    ∃ turns, ShowsTurns (first :: later) turns ∧ ∃ k : Nat → Nat, Antitone k ∧ ∀ maxTokens,
      write (first :: later) maxTokens =
        trim ("\n".intercalate (above ++ (turns.drop (k maxTokens)).flatten)) ∧
      k maxTokens ≤ turns.length ∧
      (∀ i < turns.length, k maxTokens ≤ i ↔ bytes (above ++ (turns.drop (i + 1)).flatten) ≤ 3 * maxTokens) ∧
      (k maxTokens = turns.length ↔ 3 * maxTokens < bytes above) ∧
      ∀ h : k maxTokens < turns.length,
        bytes (above ++ (turns.drop (k maxTokens)).flatten) ≤ 3 * maxTokens + bytes turns[k maxTokens] := by
  intro above
  have habove : header (first :: later) = above := by
    rw [header, List.head?_cons, Option.map_some, thoughtLine_eq]
    rfl
  refine ⟨_, showsTurns_turnsOf _, fun maxTokens => firstKept maxTokens (first :: later),
    fun _ _ hmore => firstKept_anti hmore, fun maxTokens => ?_⟩
  obtain ⟨hwrite, hfits⟩ := write_eq first later maxTokens
  have hnone : firstKept maxTokens (first :: later) = (first :: later).length ↔ _ :=
    firstKept_eq_length_iff (List.cons_ne_nil first later)
  simp only [fits_iff, linesFrom_eq_flatten, size_eq_bytes, habove] at hwrite hfits hnone
  rw [← length_turnsOf (first :: later)] at hfits hnone
  refine ⟨hwrite, ?_, hfits, hnone, fun h => ?_⟩
  · rw [length_turnsOf]
    exact firstKept_le_length
  · exact bytes_drop_le h ((hfits _ h).mp (Nat.le_refl _))

/-- Three turns, of which the first two take an action. -/
def threeTurns : List Step :=
  [{ thought := "first", action := "math.Add", actionVariables := .ofList [("input", "2")], observation := "5" },
    { thought := "second", action := "text.Upper", actionVariables := .ofList [("input", "é")], observation := "É" },
    { thought := "third" }]

/-- The second turn is kept though there is no room for it, and so nothing is kept of the first but its thought. -/
theorem write_kept_twoOfThree :
    ∃ k : Nat → Nat, Antitone k ∧ k 46 = 1 ∧ write threeTurns 46 =
      "This was my previous work (but they haven't seen any of it! They only see what I return as final answer):" ++
        ("\n[THOUGHT] first\n[THOUGHT] second\n[ACTION] \x7b\"action\": \"text.Upper\"," ++
          "\"action_variables\": \x7b\"input\":\"é\"\x7d\x7d\n[OBSERVATION] É\n") ++
        "[THOUGHT] third" := by
  obtain ⟨turns, hturns, k, hanti, hkept⟩ := write_kept threeTurns[0] (threeTurns.drop 1)
  obtain rfl := hturns.unique (showsTurns_turnsOf threeTurns)
  obtain ⟨hwrite, -, hfits, -, -⟩ := hkept 46
  have hfirst : ¬k 46 ≤ 0 := (hfits 0 (by decide)).not.mpr (by decide +kernel)
  have hsecond : k 46 ≤ 1 := (hfits 1 (by decide)).mpr (by decide +kernel)
  have hone : k 46 = 1 := by omega
  have hlines : "\n".intercalate ([heading, "[THOUGHT] first"] ++ ((turnsOf threeTurns).drop 1).flatten) =
      heading ++ ("\n[THOUGHT] first\n[THOUGHT] second\n[ACTION] \x7b\"action\": \"text.Upper\"," ++
        "\"action_variables\": \x7b\"input\":\"é\"\x7d\x7d\n[OBSERVATION] É\n") ++ "[THOUGHT] third" := by
    decide +kernel
  have hthird : Tight "[THOUGHT] third".toList := by
    refine ⟨?_, ?_⟩ <;> rintro _ ⟨⟩ <;> decide
  have htight (middle : String) : Tight (heading ++ middle ++ "[THOUGHT] third").toList := by
    rw [String.toList_append, String.toList_append]
    exact tight_heading.append (by decide) hthird (by decide) middle.toList
  refine ⟨k, hanti, hone, hwrite.trans ?_⟩
  rw [hone]
  exact (congrArg trim hlines).trans (trim_of_tight (htight _))

end Orchestration.Scratchpad
