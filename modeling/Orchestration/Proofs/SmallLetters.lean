import Orchestration.Text.Case

/-!
# Small forms

The small form of a text is its own small form: no letter that a letter becomes becomes another one, whether it
comes from ASCII, from a run of the table or from one of the letters with rules of their own.

* `Text.IsSmall` — a character that no rule moves.
* `Text.isSmall_of_mem_lowerChar` — what a character becomes is not moved again.
* `Text.lower_lower` — so lowering a text twice is lowering it once.
* `Text.mem_lower_iff` — dots, digits and other characters before the letters stay where they are.
* `Text.lower_eq_of_sameAsciiLetters` — texts that differ only in the case of ASCII letters have one small form.
* `Text.lower_eq_iff_of_isAscii` — texts of ASCII have one small form only then.
-/

namespace Orchestration.Text

namespace CaseRun

/-- The character of this number belongs to the run. -/
def Holds (r : CaseRun) (n : Nat) : Prop := r.first ≤ n ∧ n ≤ r.last ∧ (n - r.first) % r.stride = 0

instance (r : CaseRun) (n : Nat) : Decidable (r.Holds n) := inferInstanceAs (Decidable (_ ∧ _ ∧ _))

/-- A run has no part in what lies from `first` to `last`, `stride` apart: it lies before or behind it, or takes
each second character between. -/
def misses (first last stride : Nat) (r : CaseRun) : Bool :=
  Nat.blt last r.first || (Nat.blt r.last first ||
    (Nat.beq (r.stride % 2) 0 && ((Nat.beq (stride % 2) 0 || Nat.beq first last) &&
      Nat.beq ((first + r.first) % 2) 1)))

/-- What the run moves its characters to belongs to none of the other runs. -/
def lands (runs : List CaseRun) (r : CaseRun) : Bool :=
  runs.all (misses (r.first + r.shift).toNat (r.last + r.shift).toNat r.stride)

theorem not_holds_of_misses {r : CaseRun} {first last stride n : Nat}
    (h : misses first last stride r = true) (hfirst : first ≤ n) (hlast : n ≤ last)
    (hstride : (n - first) % stride = 0) : ¬r.Holds n := by
  rintro ⟨hrfirst, hrlast, hrstride⟩
  simp only [misses, Bool.or_eq_true, Bool.and_eq_true, Nat.blt_eq, Nat.beq_eq] at h
  obtain h | h | ⟨heven, hstep, hodd⟩ := h
  · omega
  · omega
  · -- both go in steps of two, from starts that differ by an odd number
    have hr : 2 ∣ n - r.first :=
      Nat.dvd_trans (Nat.dvd_of_mod_eq_zero heven) (Nat.dvd_of_mod_eq_zero hrstride)
    have hn : 2 ∣ n - first := by
      obtain hstep | hstep := hstep
      · exact Nat.dvd_trans (Nat.dvd_of_mod_eq_zero hstep) (Nat.dvd_of_mod_eq_zero hstride)
      · exact ⟨0, by omega⟩
    omega

end CaseRun

open CaseRun

/-! ### The table -/

/-- No run moves a character to one that a run moves. -/
theorem lowerRuns_lands : lowerRuns.all (lands lowerRuns) = true := by decide +kernel

/-- Runs move characters to characters, none of them a capital of ASCII or the dotted capital `İ`. -/
theorem lowerRuns_bounds : ∀ r ∈ lowerRuns, 91 ≤ r.first + r.shift ∧
    (r.last + r.shift < 304 ∨ 304 < r.first + r.shift) ∧
      (r.last + r.shift < 0xD800 ∨ 0xDFFF < r.first + r.shift ∧ r.last + r.shift < 0x110000) := by
  decide +kernel

/-- Even the capital sigma, which has a rule of its own, belongs to a run. -/
theorem exists_holds_sigma : ∃ r ∈ lowerRuns, r.Holds 'Σ'.toNat := by decide +kernel

/-! ### Characters -/

/-- No rule moves the character, wherever it stands. -/
def IsSmall (c : Char) : Prop := c ≠ 'Σ' ∧ lowerChar c = [c]

instance (c : Char) : Decidable (IsSmall c) := inferInstanceAs (Decidable (_ ∧ _))

/-- What ASCII capitals become, and all else of ASCII. -/
theorem isSmall_toLower_ascii : ∀ n < 128, IsSmall (Char.ofNat n).toLower := by decide

theorem isSmall_ascii : ∀ n < 128, 91 ≤ n → IsSmall (Char.ofNat n) := by decide

theorem isSmall_of_not_holds {c : Char} (hascii : ¬c.toNat < 128) (hdotted : c ≠ 'İ')
    (h : ∀ r ∈ lowerRuns, ¬r.Holds c.toNat) : IsSmall c := by
  constructor
  · rintro rfl
    obtain ⟨r, hr, hholds⟩ := exists_holds_sigma
    exact h r hr hholds
  · have hnone : (lowerRuns.find? fun r =>
        r.first ≤ c.toNat && c.toNat ≤ r.last && (c.toNat - r.first) % r.stride == 0) = none := by
      refine List.find?_eq_none.mpr fun r hr hholds => h r hr ?_
      simpa [Holds, and_assoc] using hholds
    rw [lowerChar, if_neg hascii, if_neg hdotted, shiftIn, hnone]

/-- A run moves its characters to characters behind the capitals of ASCII. -/
theorem toNat_shifted {r : CaseRun} (hr : r ∈ lowerRuns) {n : Nat} (h : r.Holds n) :
    (Char.ofNat (n + r.shift).toNat).toNat = (n + r.shift).toNat ∧ 91 ≤ (n + r.shift).toNat := by
  obtain ⟨hfirst, hlast, -⟩ := h
  obtain ⟨hcapital, -, hscalar⟩ := lowerRuns_bounds r hr
  have hvalid : (n + r.shift).toNat.isValidChar := by
    simp only [Nat.isValidChar]
    omega
  refine ⟨?_, by omega⟩
  rw [Char.ofNat, dif_pos hvalid]
  rfl

/-- **What a run moves a character to** stays where it is. -/
theorem isSmall_shifted {r : CaseRun} (hr : r ∈ lowerRuns) {n : Nat} (h : r.Holds n) :
    IsSmall (Char.ofNat (n + r.shift).toNat) := by
  have hnumber := (toNat_shifted hr h).1
  obtain ⟨hfirst, hlast, hstride⟩ := h
  obtain ⟨hcapital, hdotted, -⟩ := lowerRuns_bounds r hr
  obtain ⟨image, himage⟩ : ∃ image : Nat, (n + r.shift).toNat = image := ⟨_, rfl⟩
  rw [himage] at hnumber
  have hfree : ∀ q ∈ lowerRuns, ¬q.Holds image := by
    intro q hq
    have hmisses := List.all_eq_true.mp (List.all_eq_true.mp lowerRuns_lands r hr) q hq
    refine not_holds_of_misses hmisses (by omega) (by omega) ?_
    have hdistance : image - (r.first + r.shift).toNat = n - r.first := by omega
    rw [hdistance]
    exact hstride
  rw [himage]
  by_cases hascii : image < 128
  · exact isSmall_ascii image hascii (by omega)
  · refine isSmall_of_not_holds (by omega) ?_ (by rwa [hnumber])
    intro heq
    have hdot : image = 304 := by
      rw [← hnumber, heq]
      rfl
    omega

/-- **What a character becomes** is not moved again. -/
theorem isSmall_of_mem_lowerChar {c d : Char} (h : d ∈ lowerChar c) : IsSmall d := by
  rw [lowerChar] at h
  split at h
  · next hascii =>
    obtain rfl := List.mem_singleton.mp h
    have hsmall := isSmall_toLower_ascii c.toNat hascii
    rwa [Char.ofNat_toNat] at hsmall
  · next hascii =>
    split at h
    · have hpair : IsSmall 'i' ∧ IsSmall '\u0307' := by decide +kernel
      obtain rfl | rfl : d = 'i' ∨ d = '\u0307' := by simpa using h
      · exact hpair.1
      · exact hpair.2
    · next hdotted =>
      obtain rfl := List.mem_singleton.mp h
      rw [shiftIn]
      split
      · next r hfind =>
        have hholds := List.find?_some hfind
        exact isSmall_shifted (List.mem_of_find?_eq_some hfind) (by simpa [Holds, and_assoc] using hholds)
      · next hfind =>
        refine isSmall_of_not_holds hascii hdotted fun r hr hholds => ?_
        exact List.find?_eq_none.mp hfind r hr (by simpa [Holds, and_assoc] using hholds)

/-! ### Texts -/

theorem isSmall_of_mem_lowerAfter {before cs : List Char} {d : Char} (h : d ∈ lowerAfter before cs) :
    IsSmall d := by
  induction cs generalizing before with
  | nil => cases h
  | cons c cs ih =>
    rw [lowerAfter] at h
    rcases List.mem_append.mp h with h | h
    · split at h
      · have hsigmas : IsSmall 'ς' ∧ IsSmall 'σ' := by decide +kernel
        split at h
        · obtain rfl := List.mem_singleton.mp h
          exact hsigmas.1
        · obtain rfl := List.mem_singleton.mp h
          exact hsigmas.2
      · exact isSmall_of_mem_lowerChar h
    · exact ih h

theorem lowerAfter_of_isSmall {before cs : List Char} (h : ∀ c ∈ cs, IsSmall c) :
    lowerAfter before cs = cs := by
  induction cs generalizing before with
  | nil => rfl
  | cons c cs ih =>
    obtain ⟨hsigma, hlower⟩ := h c List.mem_cons_self
    rw [lowerAfter, if_neg hsigma, hlower, ih fun d hd => h d (List.mem_cons_of_mem _ hd)]
    rfl

/-- **A small form is its own small form.** -/
@[simp] theorem lower_lower (s : String) : lower (lower s) = lower s := by
  have hsmall : ∀ c ∈ (lower s).toList, IsSmall c := by
    intro c hc
    rw [lower, String.toList_ofList] at hc
    exact isSmall_of_mem_lowerAfter hc
  rw [lower, lowerAfter_of_isSmall hsmall, String.ofList_toList]

/-! ### ASCII letters -/

/-- Only capitals of ASCII are moved, each to its small letter. -/
theorem toLower_cases (c : Char) :
    c.toLower = c ∨ (65 ≤ c.toNat ∧ c.toNat ≤ 90) ∧ c.toLower.toNat = c.toNat + 32 := by
  by_cases hascii : c.toNat < 128
  · have htable : ∀ n < 128, (Char.ofNat n).toLower = Char.ofNat n ∨
        (65 ≤ n ∧ n ≤ 90) ∧ (Char.ofNat n).toLower.toNat = n + 32 := by decide
    have hc := htable c.toNat hascii
    rwa [Char.ofNat_toNat] at hc
  · refine .inl (dif_neg fun hcapital => hascii ?_)
    have hle : c.toNat ≤ 90 := hcapital.2
    omega

/-! ### Characters before the letters -/

/-- A character before the letters is the small letter of nothing else. -/
theorem toLower_eq_iff_of_lt {mark : Char} (hmark : mark.toNat < 65) {c : Char} : c.toLower = mark ↔ c = mark := by
  rcases toLower_cases c with hsame | ⟨hcapital, hsmall⟩
  · rw [hsame]
  · refine iff_of_false ?_ ?_ <;> rintro rfl <;> omega

/-- A character before the letters is what only it becomes. -/
theorem mem_lowerChar_iff {c : Char} (hc : c.toNat < 65) (d : Char) : c ∈ lowerChar d ↔ c = d := by
  rw [lowerChar]
  split
  · rw [List.mem_singleton]
    rcases toLower_cases d with hsame | ⟨hcapital, hsmall⟩
    · rw [hsame]
    · refine iff_of_false ?_ ?_ <;> rintro rfl <;> omega
  · next hascii =>
    refine iff_of_false (fun hmem => ?_) (by rintro rfl; omega)
    split at hmem
    · have hpair : ∀ e ∈ ['i', '\u0307'], 65 ≤ e.toNat := by simp
      have := hpair c hmem
      omega
    · obtain rfl := List.mem_singleton.mp hmem
      rw [shiftIn] at hc
      split at hc
      · next r hfind =>
        have hholds := List.find?_some hfind
        have := toNat_shifted (List.mem_of_find?_eq_some hfind) (by simpa [Holds, and_assoc] using hholds)
        omega
      · omega

/-- **A character before the letters**, such as a dot, stands in a small form just if it stands in the text. -/
theorem mem_lower_iff {c : Char} (hc : c.toNat < 65) (s : String) : c ∈ (lower s).toList ↔ c ∈ s.toList := by
  have hsigma : c ≠ 'Σ' ∧ c ≠ 'ς' ∧ c ≠ 'σ' := by
    refine ⟨?_, ?_, ?_⟩ <;> rintro rfl <;> exact absurd hc (by decide)
  have hafter : ∀ before cs, c ∈ lowerAfter before cs ↔ c ∈ cs := by
    intro before cs
    induction cs generalizing before with
    | nil => rfl
    | cons d cs ih =>
      rw [lowerAfter, List.mem_append, ih, List.mem_cons]
      split
      · next hd => split <;> simp [hd, hsigma]
      · rw [mem_lowerChar_iff hc]
  rw [lower, String.toList_ofList, hafter]

/-- Nothing but the empty text has an empty small form. -/
theorem lower_eq_empty_iff {s : String} : lower s = "" ↔ s = "" := by
  have hchar : ∀ c, lowerChar c ≠ [] := by
    intro c
    rw [lowerChar]
    split
    · exact List.cons_ne_nil _ _
    · split <;> exact List.cons_ne_nil _ _
  rw [lower, ← String.toList_inj, ← String.toList_inj, String.toList_ofList]
  cases s.toList with
  | nil => exact iff_of_true rfl rfl
  | cons c cs =>
    refine iff_of_false (fun h => ?_) (List.cons_ne_nil c cs)
    have hempty := (List.append_eq_nil_iff.mp h).1
    split at hempty
    · exact List.cons_ne_nil _ _ hempty
    · exact hchar c hempty

/-! ### Words -/

theorem inRanges_eq_true {ranges : List (Nat × Nat)} {r : Nat × Nat} (hr : r ∈ ranges) {c : Char}
    (hfirst : r.1 ≤ c.toNat) (hlast : c.toNat ≤ r.2) : inRanges ranges c = true :=
  List.any_eq_true.mpr ⟨r, hr, by simp [hfirst, hlast]⟩

theorem inRanges_eq_false_of_forall {ranges : List (Nat × Nat)} {c : Char}
    (h : ∀ r ∈ ranges, r.2 < c.toNat ∨ c.toNat < r.1) : inRanges ranges c = false := by
  refine List.any_eq_false.mpr fun r hr hin => ?_
  simp only [Bool.and_eq_true, decide_eq_true_eq] at hin
  have := h r hr
  omega

/-- Of the two classes that decide where a word ends one holds no letter of ASCII. -/
theorem caseIgnorableRanges_letters : ∀ r ∈ caseIgnorableRanges,
    (r.2 < 65 ∨ 90 < r.1) ∧ (r.2 < 97 ∨ 122 < r.1) := by decide +kernel

/-- The other holds them all. -/
theorem casedRanges_letters : (65, 90) ∈ casedRanges ∧ (97, 122) ∈ casedRanges := by decide +kernel

theorem inRanges_toLower (c : Char) :
    inRanges caseIgnorableRanges c.toLower = inRanges caseIgnorableRanges c ∧
      inRanges casedRanges c.toLower = inRanges casedRanges c := by
  rcases toLower_cases c with hsame | ⟨⟨hfirst, hlast⟩, hsmall⟩
  · rw [hsame]
    exact ⟨rfl, rfl⟩
  · constructor
    · rw [inRanges_eq_false_of_forall fun r hr => ?_, inRanges_eq_false_of_forall fun r hr => ?_]
      · have := caseIgnorableRanges_letters r hr
        omega
      · have := caseIgnorableRanges_letters r hr
        omega
    · rw [inRanges_eq_true casedRanges_letters.1 hfirst hlast,
        inRanges_eq_true casedRanges_letters.2 (by simp; omega) (by simp; omega)]

theorem nearestHasCase_map_toLower (cs : List Char) :
    nearestHasCase (cs.map Char.toLower) = nearestHasCase cs := by
  induction cs with
  | nil => rfl
  | cons c cs ih =>
    obtain ⟨hignorable, hcased⟩ := inRanges_toLower c
    rw [nearestHasCase, nearestHasCase] at ih
    rw [nearestHasCase, nearestHasCase, List.map_cons, List.dropWhile_cons, List.dropWhile_cons, hignorable]
    cases inRanges caseIgnorableRanges c with
    | true => exact ih
    | false => exact hcased

theorem lowerChar_toLower (c : Char) : lowerChar c.toLower = lowerChar c := by
  rcases toLower_cases c with hsame | ⟨hcapital, -⟩
  · rw [hsame]
  · have hascii : c.toNat < 128 := by omega
    have hsmall := isSmall_toLower_ascii c.toNat hascii
    rw [Char.ofNat_toNat] at hsmall
    rw [hsmall.2, lowerChar, if_pos hascii]

theorem toLower_eq_sigma_iff (c : Char) : c.toLower = 'Σ' ↔ c = 'Σ' := by
  rcases toLower_cases c with hsame | ⟨hcapital, hsmall⟩
  · rw [hsame]
  · have hsigma : 'Σ'.toNat = 931 := rfl
    constructor
    · intro h
      rw [h] at hsmall
      omega
    · rintro rfl
      omega

theorem lowerAfter_map_toLower (before cs : List Char) :
    lowerAfter (before.map Char.toLower) (cs.map Char.toLower) = lowerAfter before cs := by
  induction cs generalizing before with
  | nil => rfl
  | cons c cs ih =>
    have hrest := ih (c :: before)
    rw [List.map_cons] at hrest
    rw [List.map_cons, lowerAfter, lowerAfter, hrest, nearestHasCase_map_toLower, nearestHasCase_map_toLower,
      lowerChar_toLower]
    simp only [toLower_eq_sigma_iff]

/-- **Texts that differ only in the case of ASCII letters** have one small form. -/
theorem lower_eq_of_sameAsciiLetters {a b : String} (h : sameAsciiLetters a b) : lower a = lower b := by
  have hsame : a.toList.map Char.toLower = b.toList.map Char.toLower := eq_of_beq h
  rw [lower, lower, ← lowerAfter_map_toLower [] a.toList, ← lowerAfter_map_toLower [] b.toList, hsame]

/-- Every character of the text is one of ASCII. -/
def IsAscii (s : String) : Prop := ∀ c ∈ s.toList, c.toNat < 128

instance (s : String) : Decidable (IsAscii s) :=
  decidable_of_iff (s.toList.all fun c => c.toNat < 128) (by simp [IsAscii])

/-- The small form of such a text has the small letters of ASCII. -/
theorem lower_of_isAscii {s : String} (h : IsAscii s) : lower s = .ofList (s.toList.map Char.toLower) := by
  have hafter : ∀ before cs : List Char, (∀ c ∈ cs, c.toNat < 128) → lowerAfter before cs = cs.map Char.toLower := by
    intro before cs hcs
    induction cs generalizing before with
    | nil => rfl
    | cons c cs ih =>
      obtain ⟨hc, hrest⟩ := List.forall_mem_cons.mp hcs
      have hsigma : c ≠ 'Σ' := by
        rintro rfl
        exact absurd hc (by decide)
      rw [lowerAfter, if_neg hsigma, lowerChar, if_pos hc, ih _ hrest]
      rfl
  rw [lower, hafter [] s.toList h]

/-- **Two such texts** have one small form just if they differ in nothing but the case of ASCII letters. -/
theorem lower_eq_iff_of_isAscii {a b : String} (ha : IsAscii a) (hb : IsAscii b) :
    lower a = lower b ↔ sameAsciiLetters a b := by
  rw [lower_of_isAscii ha, lower_of_isAscii hb, String.ofList_inj, sameAsciiLetters, beq_iff_eq]

end Orchestration.Text
