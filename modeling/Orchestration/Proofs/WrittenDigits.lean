import Orchestration.Number.Layout
import Orchestration.Number.Reading
import Orchestration.Proofs.Scanning

/-!
# Digits in writing

The digits of a number stand for it, with any zeros before them, and a reader that takes digits stops where they end.

* `Number.digitsValue_digitChars` — the digits of a number stand for it.
* `Number.digitsValue_lt` — so many digits stand for a number with no more digits.
* `Number.spanDigits_append` — digits are read up to what is no digit.
-/

namespace Orchestration.Number

variable {ds rest : List Char} {n : Nat}

/-- The characters are digits, each of them. -/
def AreDigits (ds : List Char) : Prop := ∀ c ∈ ds, c.isDigit = true

/-- What follows some digits is no digit. -/
def StopsDigits (rest : List Char) : Prop := ∀ c ∈ rest.head?, c.isDigit = false

theorem areDigits_digitChars (n : Nat) : AreDigits (digitChars n) := fun _ hc =>
  Nat.isDigit_of_mem_toDigits (by decide) (by decide) hc

theorem areDigits_replicate_zero (count : Nat) : AreDigits (List.replicate count '0') := fun c hc => by
  rw [List.eq_of_mem_replicate hc]
  rfl

theorem AreDigits.append (h : AreDigits ds) (hrest : AreDigits rest) : AreDigits (ds ++ rest) := fun c hc =>
  (List.mem_append.mp hc).elim (h c) (hrest c)

theorem AreDigits.take (h : AreDigits ds) (count : Nat) : AreDigits (ds.take count) := fun c hc =>
  h c (List.mem_of_mem_take hc)

theorem stopsDigits_nil : StopsDigits [] := nofun

theorem stopsDigits_cons {c : Char} (h : c.isDigit = false) : StopsDigits (c :: rest) := fun _ hd =>
  Option.some.inj hd ▸ h

theorem StopsDigits.take (h : StopsDigits rest) (count : Nat) : StopsDigits (rest.take count) := by
  cases count with
  | zero => exact stopsDigits_nil
  | succ count =>
    cases rest with
    | nil => exact stopsDigits_nil
    | cons c rest => exact stopsDigits_cons (h c rfl)

/-! ### What digits stand for -/

theorem tenTo_add (a b : Nat) : tenTo (a + b) = tenTo a * tenTo b := Nat.pow_add 10 a b

theorem digitsValue_eq (ds : List Char) : digitsValue ds = Nat.ofDigitChars 10 ds 0 :=
  Nat.ofDigitChars_eq_foldl.symm

theorem digitsValue_digitChars (n : Nat) : digitsValue (digitChars n) = n := by
  rw [digitsValue_eq, digitChars, Nat.ofDigitChars_ten_toDigits]

theorem digitsValue_append (ds rest : List Char) :
    digitsValue (ds ++ rest) = tenTo rest.length * digitsValue ds + digitsValue rest := by
  rw [digitsValue_eq, Nat.ofDigitChars_append, Nat.ofDigitChars_eq_ofDigitChars_zero, ← digitsValue_eq,
    ← digitsValue_eq]
  rfl

theorem digitsValue_replicate_zero (count : Nat) : digitsValue (List.replicate count '0') = 0 := by
  rw [digitsValue_eq, Nat.ofDigitChars_replicate_zero, Nat.mul_zero]

/-- Zeros in front count for nothing. -/
theorem digitsValue_zeros_append (count : Nat) (ds : List Char) :
    digitsValue (List.replicate count '0' ++ ds) = digitsValue ds := by
  rw [digitsValue_append, digitsValue_replicate_zero, Nat.mul_zero, Nat.zero_add]

/-- Zeros at the end count as powers of ten. -/
theorem digitsValue_append_zeros (ds : List Char) (count : Nat) :
    digitsValue (ds ++ List.replicate count '0') = tenTo count * digitsValue ds := by
  rw [digitsValue_append, digitsValue_replicate_zero, List.length_replicate, Nat.add_zero]

theorem digitValue_lt {c : Char} (h : c.isDigit = true) : digitValue c < 10 := by
  obtain ⟨-, hnine⟩ := Bool.and_eq_true_iff.mp h
  have hcode : c.toNat ≤ 57 := of_decide_eq_true hnine
  have hzero : '0'.toNat = 48 := rfl
  rw [digitValue, hzero]
  omega

/-- **So many digits** stand for a number below the power of ten. -/
theorem digitsValue_lt (h : AreDigits ds) : digitsValue ds < tenTo ds.length := by
  induction ds with
  | nil => exact Nat.one_pos
  | cons c ds ih =>
    have hfirst := digitValue_lt (h c List.mem_cons_self)
    have hothers := ih fun d hd => h d (List.mem_cons_of_mem c hd)
    have hsplit : digitsValue (c :: ds) = tenTo ds.length * digitValue c + digitsValue ds := by
      have hsingle : digitsValue [c] = digitValue c := by simp [digitsValue]
      rw [← List.singleton_append, digitsValue_append, hsingle]
    calc digitsValue (c :: ds)
        < tenTo ds.length * digitValue c + tenTo ds.length := by omega
      _ = tenTo ds.length * (digitValue c + 1) := (Nat.mul_succ _ _).symm
      _ ≤ tenTo ds.length * 10 := Nat.mul_le_mul_left _ hfirst
      _ = tenTo (c :: ds).length := (tenTo_succ _).symm

/-! ### Reading digits -/

/-- **Digits are read** up to what is no digit. -/
theorem spanDigits_append (h : AreDigits ds) (hrest : StopsDigits rest) : spanDigits (ds ++ rest) = (ds, rest) := by
  rw [spanDigits, Text.takeWhile_append_ended h hrest, Text.dropWhile_append_ended h hrest]

end Orchestration.Number
