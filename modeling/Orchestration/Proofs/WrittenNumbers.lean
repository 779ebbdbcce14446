import Orchestration.Number.Layout
import Orchestration.Proofs.JsonNumbers
import Orchestration.Proofs.ShortestDecimals

/-!
# Decimals in documents

A decimal is written with a point, an exponent or both, and always in parts that a reader finds again and that stand
for it.

* `dropZeros_spec` — zeros at the end may move to the exponent.
* `WrittenAs` — parts of a number that stand for a value.
* `exists_writtenAs` — every positive decimal in a document is written in such parts.
-/

namespace Orchestration.Number

open JsonToken

/-- Zeros at the end move to the exponent, and the number stays the same. -/
theorem dropZeros_spec (tries digits : ℕ) (exponent : ℤ) :
    (dropZeros tries digits exponent).value = digits * 10 ^ exponent ∧
      (0 < digits → 0 < (dropZeros tries digits exponent).digits) ∧
      (dropZeros tries digits exponent).digits ≤ digits ∧
      exponent ≤ (dropZeros tries digits exponent).exponent ∧
      (dropZeros tries digits exponent).exponent ≤ exponent + tries := by
  induction tries generalizing digits exponent with
  | zero => exact ⟨rfl, id, le_refl _, le_refl _, by simp [dropZeros]⟩
  | succ tries ih =>
    rw [dropZeros]
    split
    · next hzero =>
      obtain ⟨hvalue, hpos, hle, hleast, hmost⟩ := ih (digits / 10) (exponent + 1)
      refine ⟨?_, fun h => hpos (by omega), hle.trans (Nat.div_le_self _ _), by omega, by push_cast; omega⟩
      have hten : ((digits / 10 : ℕ) : ℚ) * 10 = digits := by
        exact_mod_cast Nat.div_mul_cancel (Nat.dvd_of_mod_eq_zero hzero.1)
      rw [hvalue, zpow_add_one₀ (by norm_num), ← hten]
      ring
    · exact ⟨rfl, id, le_refl _, le_refl _, by push_cast; omega⟩

/-! ### Digits and their parts -/

/-- The digits of a positive number of at most twenty digits. -/
structure SpellsNumber (ds : List Char) (n : ℕ) : Prop where
  /-- they are digits -/
  areDigits : AreDigits ds
  /-- they stand for the number -/
  value : digitsValue ds = n
  /-- there is no zero in front -/
  head : ∃ d others, ds = d :: others ∧ d ≠ '0'
  /-- there are at most twenty -/
  length_le : ds.length ≤ 20
  /-- the number is no larger than the first with twenty -/
  few : n ≤ 10 ^ 19

theorem spellsNumber_digitChars {n : ℕ} (hpos : 0 < n) (hfew : n ≤ 10 ^ 19) : SpellsNumber (digitChars n) n where
  areDigits := areDigits_digitChars n
  value := digitsValue_digitChars n
  head := digitChars_head hpos
  length_le := by
    rw [digitChars, Nat.length_toDigits_le_iff (by decide) (by decide)]
    omega
  few := hfew

/-- The parts stand for the number, have no more digits than 64 bits hold and a power in range, and do not look like a
whole number. -/
structure WrittenAs (v : ℚ) (range : ℕ) (whole fraction : List Char) (power : Option ℤ) : Prop where
  /-- what stands before the point -/
  isWholePart : IsWholePart whole
  /-- what stands after it -/
  areDigits : AreDigits fraction
  /-- the number of all of it -/
  value : (digitsValue (whole ++ fraction) : ℚ) * 10 ^ (power.getD 0 - fraction.length) = v
  /-- there are few digits -/
  digits_le : digitsValue (whole ++ fraction) ≤ 10 ^ 19
  /-- the power is not too large -/
  power_le : (power.getD 0).natAbs ≤ range
  /-- a point or a power is there -/
  notWhole : (fraction.isEmpty && power.isNone) = false

namespace SpellsNumber

variable {ds : List Char} {n : ℕ} {exponent : ℤ}

theorem length_pos (h : SpellsNumber ds n) : 0 < ds.length := by
  obtain ⟨d, others, rfl, -⟩ := h.head
  exact Nat.succ_pos _

/-- Digits that are cut somewhere, with zeros in front or not. -/
theorem writtenAs (h : SpellsNumber ds n) {whole fraction : List Char} {power : Option ℤ} (hwhole : IsWholePart whole)
    (hfraction : AreDigits fraction) (hvalue : digitsValue (whole ++ fraction) = n)
    (hexponent : power.getD 0 - fraction.length = exponent) (hpower : (power.getD 0).natAbs ≤ exponent.natAbs + 20)
    (hnotWhole : (fraction.isEmpty && power.isNone) = false) :
    WrittenAs (n * 10 ^ exponent) (exponent.natAbs + 20) whole fraction power where
  isWholePart := hwhole
  areDigits := hfraction
  value := by rw [hvalue, hexponent]
  digits_le := hvalue ▸ h.few
  power_le := hpower
  notWhole := hnotWhole

/-- A whole number has zeros up to the point and one after it. -/
theorem writtenAs_zeros (h : SpellsNumber ds n) (hexponent : 0 ≤ exponent)
    (hshort : (ds.length : ℤ) - 1 + exponent < 16) :
    WrittenAs (n * 10 ^ exponent) (exponent.natAbs + 20) (ds ++ List.replicate exponent.toNat '0') ['0'] none := by
  obtain ⟨d, others, hhead, hd⟩ := h.head
  have hall : AreDigits (ds ++ List.replicate exponent.toNat '0' ++ ['0']) :=
    (h.areDigits.append (areDigits_replicate_zero _)).append (areDigits_replicate_zero 1)
  have hzeros : ds ++ List.replicate exponent.toNat '0' ++ ['0'] =
      ds ++ List.replicate (exponent.toNat + 1) '0' := by
    rw [List.append_assoc, List.replicate_succ']
  constructor
  · exact ⟨h.areDigits.append (areDigits_replicate_zero _), .inr ⟨d, _, by rw [hhead, List.cons_append], hd⟩⟩
  · exact areDigits_replicate_zero 1
  · have hpower : (10 : ℚ) ^ ((exponent.toNat + 1 : ℕ) : ℤ) * 10 ^ (-1 : ℤ) = 10 ^ exponent := by
      rw [← zpow_add₀ (by norm_num)]
      congr 1
      omega
    have hlast : (none : Option ℤ).getD 0 - ((['0'] : List Char).length : ℤ) = -1 := rfl
    rw [hzeros, digitsValue_append_zeros, h.value, hlast, Nat.cast_mul, cast_tenTo, ← hpower]
    ring
  · have hlt := digitsValue_lt hall
    have hlength : (ds ++ List.replicate exponent.toNat '0' ++ ['0']).length ≤ 17 := by
      rw [hzeros, List.length_append, List.length_replicate]
      omega
    have hbound : tenTo (ds ++ List.replicate exponent.toNat '0' ++ ['0']).length ≤ 10 ^ 17 :=
      Nat.pow_le_pow_right (by decide) hlength
    omega
  · simp
  · rfl

/-- Digits with the point among them. -/
theorem writtenAs_cut (h : SpellsNumber ds n) (hexponent : exponent < 0) (hcut : 0 ≤ (ds.length : ℤ) - 1 + exponent) :
    WrittenAs (n * 10 ^ exponent) (exponent.natAbs + 20) (ds.take ((ds.length : ℤ) + exponent).toNat)
      (ds.drop ((ds.length : ℤ) + exponent).toNat) none := by
  obtain ⟨d, others, hhead, hd⟩ := h.head
  obtain ⟨cut, hcutEq⟩ : ∃ cut : ℕ, cut + 1 = ((ds.length : ℤ) + exponent).toNat :=
    ⟨((ds.length : ℤ) + exponent).toNat - 1, by omega⟩
  have hdrop : AreDigits (ds.drop ((ds.length : ℤ) + exponent).toNat) :=
    fun c hc => h.areDigits c (List.mem_of_mem_drop hc)
  have hlength : (ds.drop ((ds.length : ℤ) + exponent).toNat).length = (-exponent).toNat := by
    rw [List.length_drop]
    omega
  refine h.writtenAs ⟨h.areDigits.take _, .inr ⟨d, others.take cut, ?_, hd⟩⟩ hdrop ?_ ?_ ?_ ?_
  · rw [← hcutEq, hhead, List.take_succ_cons]
  · rw [List.take_append_drop, h.value]
  · rw [hlength]
    simp
    omega
  · simp
  · have hne : ds.drop ((ds.length : ℤ) + exponent).toNat ≠ [] := by
      intro hnil
      rw [hnil] at hlength
      simp at hlength
      omega
    simp [hne]

/-- Digits after a point and zeros. -/
theorem writtenAs_small (h : SpellsNumber ds n) (hsmall : (ds.length : ℤ) - 1 + exponent < 0) :
    WrittenAs (n * 10 ^ exponent) (exponent.natAbs + 20) ['0']
      (List.replicate (-((ds.length : ℤ) - 1 + exponent) - 1).toNat '0' ++ ds) none := by
  have hpos := h.length_pos
  refine h.writtenAs ⟨areDigits_replicate_zero 1, .inl rfl⟩ ((areDigits_replicate_zero _).append h.areDigits)
    ?_ ?_ ?_ ?_
  · have hzeros : ∀ count, ['0'] ++ (List.replicate count '0' ++ ds) = List.replicate (count + 1) '0' ++ ds :=
      fun count => rfl
    rw [hzeros, digitsValue_zeros_append, h.value]
  · rw [List.length_append, List.length_replicate]
    simp
    omega
  · simp
  · have hne : ds ≠ [] := List.ne_nil_of_length_pos hpos
    simp [hne]

/-- One digit, a point and the others, with a power. -/
theorem writtenAs_power {d : Char} {others : List Char} (h : SpellsNumber (d :: others) n) :
    WrittenAs (n * 10 ^ exponent) (exponent.natAbs + 20) [d] others (some ((others.length : ℤ) + exponent)) := by
  obtain ⟨first, rest, hhead, hd⟩ := h.head
  obtain ⟨rfl, rfl⟩ := List.cons.inj hhead
  have hlength := h.length_le
  rw [List.length_cons] at hlength
  refine h.writtenAs ⟨fun c hc => h.areDigits c (by simp at hc; simp [hc]), .inr ⟨d, [], rfl, hd⟩⟩
    (fun c hc => h.areDigits c (List.mem_cons_of_mem _ hc)) h.value ?_ ?_ (by simp)
  · simp
  · simp
    omega

end SpellsNumber

/-! ### Decimals in writing -/

section Writing

variable {x : Decimal} {v : ℚ} {range : ℕ} {whole fraction : List Char} {power : Option ℤ}

/-- Without a power there is a point. -/
theorem WrittenAs.pointText_eq (h : WrittenAs v range whole fraction none) : pointText fraction = '.' :: fraction := by
  have hpoint := h.notWhole
  rw [Option.isNone_none, Bool.and_true] at hpoint
  rw [pointText, hpoint]
  rfl

/-- What stands for a decimal without the zeros at its end stands for the decimal. -/
theorem WrittenAs.of_dropZeros
    (h : WrittenAs (dropZeros 20 x.digits x.exponent).value
      ((dropZeros 20 x.digits x.exponent).exponent.natAbs + 20) whole fraction power) :
    WrittenAs x.value (x.exponent.natAbs + 40) whole fraction power := by
  obtain ⟨hvalue, -, -, hleast, hmost⟩ := dropZeros_spec 20 x.digits x.exponent
  exact ⟨h.isWholePart, h.areDigits, h.value.trans hvalue, h.digits_le, h.power_le.trans (by omega), h.notWhole⟩

theorem isPositional_document_iff (scientific : ℤ) :
    Layout.document.isPositional scientific = true ↔ -5 ≤ scientific ∧ scientific < 16 := by
  simp [Layout.isPositional, Layout.document]

/-- **A positive decimal** in a document is written in parts that stand for it. -/
theorem exists_writtenAs (hpos : 0 < x.digits) (hfew : x.digits ≤ 10 ^ 19) :
    ∃ whole fraction power, WrittenAs x.value (x.exponent.natAbs + 40) whole fraction power ∧
      (Layout.document.write x).toList = whole ++ (pointText fraction ++ powerText power) := by
  obtain ⟨y, hy⟩ : ∃ y, y = dropZeros 20 x.digits x.exponent := ⟨_, rfl⟩
  obtain ⟨-, hyPos, hle, -, -⟩ := dropZeros_spec 20 x.digits x.exponent
  have hkeep {whole fraction : List Char} {power : Option ℤ}
      (h : WrittenAs y.value (y.exponent.natAbs + 20) whole fraction power) :
      WrittenAs x.value (x.exponent.natAbs + 40) whole fraction power := (hy ▸ h).of_dropZeros
  rw [← hy] at hyPos hle
  obtain ⟨ds, hds⟩ : ∃ ds, ds = digitChars y.digits := ⟨_, rfl⟩
  have hspells : SpellsNumber ds y.digits := hds ▸ spellsNumber_digitChars (hyPos hpos) (hle.trans hfew)
  rw [Layout.write]
  simp only [← hy, ← hds]
  split
  · next h =>
    obtain ⟨hmin, hmax⟩ := (isPositional_document_iff _).mp h
    split
    · next hexponent =>
      exact ⟨_, _, _, hkeep (hspells.writtenAs_zeros hexponent hmax), by
        simp [Layout.document, pointText, powerText]⟩
    · next hexponent =>
      split
      · next hcut =>
        have hwritten := hspells.writtenAs_cut (by omega) hcut
        have hsum : (ds.length : ℤ) - 1 + y.exponent + 1 = ds.length + y.exponent := by omega
        refine ⟨_, _, _, hkeep hwritten, ?_⟩
        rw [hsum, String.toList_ofList, hwritten.pointText_eq]
        simp [powerText]
      · next hsmall =>
        have hwritten := hspells.writtenAs_small (Int.not_le.mp hsmall)
        refine ⟨_, _, _, hkeep hwritten, ?_⟩
        rw [String.toList_ofList, hwritten.pointText_eq]
        simp [powerText]
  · obtain ⟨d, others, rfl, -⟩ := hspells.head
    have hpower : ((d :: others).length : ℤ) - 1 + y.exponent = others.length + y.exponent := by simp
    refine ⟨_, _, _, hkeep hspells.writtenAs_power, ?_⟩
    rw [hpower]
    cases others with
    | nil =>
      simp only [pointText, powerText]
      split <;> simp
    | cons e others =>
      simp only [pointText, powerText]
      split <;> simp

end Writing

end Orchestration.Number
