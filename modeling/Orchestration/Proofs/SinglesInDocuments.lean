import Orchestration.Proofs.DoubleArithmetic
import Orchestration.Proofs.JsonTrees
import Orchestration.Proofs.WrittenNumbers

/-!
# Single-precision numbers in documents

A finite number of single precision is written into a document as one of double precision. The reader takes its digits
by one product or quotient in double precision, which may be off by a few last bits; in single precision these do not
count, so that the number comes back bit for bit.

* `Source.number?_of_writtenAs` — the digits of a number in its parts are all taken.
* `exists_scaledNumber?` — what the digits stand for is read with a small error.
* `Single.exists_denotes_toDouble` — a number as one of double precision.
* `Single.ofDouble_eq` — a number of double precision that is near enough is the number.
* `Single.readBack` — a finite number is read as it was.
-/

namespace Orchestration

open Number JsonToken

/-! ### Digits -/

namespace Source

/-- Digits are all taken as long as 64 bits hold them. -/
theorem takeDigits_eq (start : ℕ) (ds : List Char) (h : tenTo ds.length * start + digitsValue ds ≤ largest64) :
    takeDigits start ds = (tenTo ds.length * start + digitsValue ds, ds.length, 0) := by
  induction ds generalizing start with
  | nil => simp [takeDigits, digitsValue, tenTo]
  | cons d ds ih =>
    have hsplit : digitsValue (d :: ds) = tenTo ds.length * digitValue d + digitsValue ds := by
      have hsingle : digitsValue [d] = digitValue d := by simp [digitsValue]
      rw [← List.singleton_append, digitsValue_append, hsingle]
    have hvalue : tenTo (d :: ds).length * start + digitsValue (d :: ds) =
        tenTo ds.length * (start * 10 + digitValue d) + digitsValue ds := by
      rw [hsplit, List.length_cons, tenTo_succ]
      ring
    rw [hvalue] at h ⊢
    have hprefix : start * 10 + digitValue d ≤ largest64 := by
      have hle := Nat.le_mul_of_pos_left (start * 10 + digitValue d) (tenTo_pos ds.length)
      omega
    rw [takeDigits]
    simp only [ih _ h, if_neg (Nat.not_lt.mpr hprefix)]
    rfl

/-- **The digits of a number in its parts** are all taken. -/
theorem number?_of_writtenAs {v : ℚ} {range : ℕ} {whole fraction : List Char} {power : Option ℤ}
    (h : WrittenAs v range whole fraction power) (hrange : range < 2 ^ 31) (negative : Bool) :
    number? ⟨negative, whole, fraction, power.getD 0⟩ false =
      scaledNumber? negative (digitsValue (whole ++ fraction)) (power.getD 0 - fraction.length) := by
  have hall : tenTo fraction.length * digitsValue whole + digitsValue fraction = digitsValue (whole ++ fraction) :=
    (digitsValue_append _ _).symm
  have hfew := h.digits_le
  have hlargest : largest64 = 2 ^ 64 - 1 := rfl
  have hwhole : tenTo whole.length * 0 + digitsValue whole ≤ largest64 := by
    have hle := Nat.le_mul_of_pos_left (digitsValue whole) (tenTo_pos fraction.length)
    omega
  have hpower : (power.getD 0).natAbs < twoTo 31 := h.power_le.trans_lt hrange
  rw [number?, takeDigits_eq 0 whole hwhole]
  simp only [Nat.mul_zero, Nat.zero_add, Bool.false_and]
  rw [takeDigits_eq _ fraction (by omega), hall]
  simp only [Bool.false_eq_true, if_false, if_pos hpower]
  congr 1
  push_cast
  ring

end Source

/-! ### Near numbers -/

namespace Number

/-- At most the `2 ^ places`-th part of the number off. -/
def Near (places : ℕ) (a v : ℚ) : Prop := |a - v| * 2 ^ places ≤ v

namespace Near

variable {n : ℕ} {a b s t v : ℚ}

theorem bounds (h : Near (n + 2) a v) : v / 2 ≤ a ∧ a ≤ 2 * v := by
  have hone : (1 : ℚ) ≤ 2 ^ n := one_le_pow₀ one_le_two
  have hfour : |a - v| * 4 ≤ v := by
    calc |a - v| * 4 ≤ |a - v| * 4 * 2 ^ n := le_mul_of_one_le_right (by positivity) hone
      _ = |a - v| * 2 ^ (n + 2) := by ring
      _ ≤ v := h
  have hpos := abs_nonneg (a - v)
  obtain ⟨hbelow, habove⟩ := abs_le.mp (le_refl |a - v|)
  constructor <;> linarith

theorem quarter (h : Near (n + 2) a v) : |a - v| * 2 ^ n ≤ v / 4 := by
  have hsplit : |a - v| * 2 ^ (n + 2) = 4 * (|a - v| * 2 ^ n) := by ring
  rw [Near, hsplit] at h
  linarith

theorem mono {m : ℕ} (h : Near m a v) (hn : n ≤ m) : Near n a v := by
  have hpower : (2 : ℚ) ^ n ≤ 2 ^ m := pow_le_pow_right₀ one_le_two hn
  exact (mul_le_mul_of_nonneg_left hpower (abs_nonneg _)).trans h

theorem mul (ha : Near (n + 2) a s) (hb : Near (n + 2) b t) (hs : 0 < s) (ht : 0 < t) : Near n (a * b) (s * t) := by
  have hbound := hb.bounds
  have hbPos : 0 ≤ b := by linarith
  have hsplit : a * b - s * t = (a - s) * b + s * (b - t) := by ring
  have habs : |a * b - s * t| ≤ |a - s| * b + s * |b - t| := by
    rw [hsplit]
    refine (abs_add_le _ _).trans_eq ?_
    rw [abs_mul, abs_mul, abs_of_nonneg hbPos, abs_of_pos hs]
  calc |a * b - s * t| * 2 ^ n ≤ (|a - s| * b + s * |b - t|) * 2 ^ n := by gcongr
    _ = |a - s| * 2 ^ n * b + s * (|b - t| * 2 ^ n) := by ring
    _ ≤ s / 4 * (2 * t) + s * (t / 4) := by
      gcongr
      · exact ha.quarter
      · exact hbound.2
      · exact hb.quarter
    _ ≤ s * t := by
      have hst := mul_pos hs ht
      linarith

theorem div (ha : Near (n + 2) a s) (hb : Near (n + 2) b t) (hs : 0 < s) (ht : 0 < t) : Near n (a / b) (s / t) := by
  have hbound := hb.bounds
  have hbPos : 0 < b := by linarith
  have hsplit : a / b - s / t = ((a - s) * t - s * (b - t)) / (b * t) := by
    field_simp
    ring
  have habs : |a / b - s / t| ≤ (|a - s| * t + s * |b - t|) / (b * t) := by
    rw [hsplit, abs_div, abs_of_pos (mul_pos hbPos ht)]
    gcongr
    refine (abs_sub _ _).trans_eq ?_
    rw [abs_mul, abs_mul, abs_of_pos ht, abs_of_pos hs]
  calc |a / b - s / t| * 2 ^ n ≤ (|a - s| * t + s * |b - t|) / (b * t) * 2 ^ n := by gcongr
    _ = (|a - s| * 2 ^ n * t + s * (|b - t| * 2 ^ n)) / (b * t) := by ring
    _ ≤ (s / 4 * t + s * (t / 4)) / (b * t) := by
      gcongr
      · exact ha.quarter
      · exact hb.quarter
    _ = s * (t / 2) / (b * t) := by ring
    _ ≤ s * b / (b * t) := by
      gcongr
      exact hbound.1
    _ = s / t := by field_simp

theorem trans (ha : Near (n + 2) a b) (hb : Near (n + 2) b v) : Near n a v := by
  have hbound := hb.bounds
  calc |a - v| * 2 ^ n ≤ (|a - b| + |b - v|) * 2 ^ n := by
        gcongr
        exact abs_sub_le _ _ _
    _ = |a - b| * 2 ^ n + |b - v| * 2 ^ n := by ring
    _ ≤ b / 4 + v / 4 := add_le_add ha.quarter hb.quarter
    _ ≤ v := by linarith

end Near

/-! ### Powers of ten -/

/-- A fraction in range that is written in double precision is less than a last bit off. -/
theorem exists_denotes_encode {num den : ℕ} (hden : 0 < den) (negative : Bool)
    (hlow : 2 ^ (-1000 : ℤ) ≤ (num / den : ℚ)) (hhigh : (num / den : ℚ) < 2 ^ (1000 : ℤ)) :
    ∃ significand exponent,
      Denotes (.ofBits (.ofNat (Format.double.encode negative num den))) negative significand exponent ∧
        Near 53 (binary significand exponent) (num / den) := by
  have hleast : (2 : ℚ) ^ (Format.double.minExponent + Format.double.fractionBits) ≤ num / den :=
    (zpow_le_zpow_right₀ one_le_two (by decide)).trans hlow
  have hmost : (num / den : ℚ) <
      2 ^ (Format.double.minExponent + Format.double.topExponent + Format.double.fractionBits - 2) :=
    hhigh.trans_le (zpow_le_zpow_right₀ one_le_two (by decide))
  obtain ⟨significand, exponent, hfits, hfull, hword, herror⟩ :=
    Format.exists_encode_eq_word (f := .double) hden negative hleast hmost
  have hbits : (twoTo (Format.double.fractionBits + 1) : ℚ) = 2 ^ 53 := by
    have hnat : twoTo (Format.double.fractionBits + 1) = 2 ^ 53 := rfl
    rw [hnat]
    push_cast
    rfl
  rw [hbits] at herror
  refine ⟨significand, exponent, ?_, herror⟩
  rw [hword]
  exact Denotes.of_word hfull hfits negative

/-- The powers of two that are out of reach. -/
theorem tenPower_range : (2 : ℚ) ^ (-1000 : ℤ) ≤ 1 ∧ (10 : ℚ) ^ 300 < 2 ^ (1000 : ℤ) := by
  have hnat : (10 : ℕ) ^ 300 < 2 ^ 1000 := by decide +kernel
  constructor
  · exact (zpow_le_zpow_right₀ one_le_two (by decide)).trans_eq (zpow_zero (2 : ℚ))
  · have hpower : (2 : ℚ) ^ (1000 : ℤ) = 2 ^ 1000 := zpow_natCast 2 1000
    rw [hpower]
    exact_mod_cast hnat

/-- A power of ten in double precision. -/
theorem exists_denotes_powerOfTen {n : ℕ} (hn : n ≤ 300) :
    ∃ significand exponent, Denotes (Source.powerOfTen n) false significand exponent ∧
      Near 53 (binary significand exponent) (10 ^ n) := by
  have hvalue : ((1 * tenTo n : ℕ) : ℚ) / (1 : ℕ) = 10 ^ n := by
    rw [Nat.one_mul, cast_tenTo, Nat.cast_one, div_one, zpow_natCast]
  have hpower : Source.powerOfTen n = .ofBits (.ofNat (Format.double.encode false (1 * tenTo n) 1)) := by
    have hdecimal : Format.double.ofDecimal false 1 n = Format.double.encode false (1 * tenTo n) 1 := by
      have hlog : Nat.log2 1 = 0 := rfl
      rw [Format.ofDecimal, hlog]
      rw [if_neg (by omega), if_neg (by omega), if_pos (by omega), Int.toNat_natCast]
    rw [Source.powerOfTen, hdecimal]
  have hlow : (2 : ℚ) ^ (-1000 : ℤ) ≤ ((1 * tenTo n : ℕ) : ℚ) / (1 : ℕ) := by
    rw [hvalue]
    exact tenPower_range.1.trans (one_le_pow₀ (by norm_num))
  have hhigh : ((1 * tenTo n : ℕ) : ℚ) / (1 : ℕ) < 2 ^ (1000 : ℤ) := by
    rw [hvalue]
    exact (pow_le_pow_right₀ (by norm_num) hn).trans_lt tenPower_range.2
  rw [hpower]
  have hexists := exists_denotes_encode Nat.one_pos false hlow hhigh
  rwa [hvalue] at hexists

/-! ### Middling numbers -/

/-- Neither so large nor so small that double precision would come to its ends. -/
structure IsMiddling (v : ℚ) : Prop where
  /-- not too small -/
  low : 2 ^ (-151 : ℤ) ≤ v
  /-- not too large -/
  high : v < 2 ^ (152 : ℤ)

namespace IsMiddling

variable {v : ℚ}

theorem pos (h : IsMiddling v) : 0 < v := (twoPower_pos _).trans_le h.low

theorem of_near {a : ℚ} (hlow : 2 ^ (-150 : ℤ) ≤ v) (hhigh : v < 2 ^ (150 : ℤ)) (h : Near 53 a v) : IsMiddling a := by
  obtain ⟨hbelow, habove⟩ := h.bounds
  have hhalf : (2 : ℚ) * 2 ^ (-151 : ℤ) = 2 ^ (-150 : ℤ) := (twoPower_succ (-151)).symm
  have htwice : (2 : ℚ) * 2 ^ (150 : ℤ) ≤ 2 ^ (152 : ℤ) := by
    rw [← twoPower_succ]
    exact zpow_le_zpow_right₀ one_le_two (by decide)
  exact ⟨by linarith, habove.trans_lt ((mul_lt_mul_of_pos_left hhigh two_pos).trans_le htwice)⟩

/-- What is near a middling number stays in the range of the arithmetic. -/
theorem in_range (h : IsMiddling v) {w : ℚ} (hw : Near 51 w v) : 2 ^ (-1000 : ℤ) ≤ w ∧ w < 2 ^ (1000 : ℤ) := by
  obtain ⟨hbelow, habove⟩ := hw.bounds
  have hleast : (2 : ℚ) * 2 ^ (-1000 : ℤ) ≤ 2 ^ (-151 : ℤ) := by
    rw [← twoPower_succ]
    exact zpow_le_zpow_right₀ one_le_two (by decide)
  have hmost : (2 : ℚ) * 2 ^ (152 : ℤ) ≤ 2 ^ (1000 : ℤ) := by
    rw [← twoPower_succ]
    exact zpow_le_zpow_right₀ one_le_two (by decide)
  refine ⟨?_, habove.trans_lt ((mul_lt_mul_of_pos_left h.high two_pos).trans_le hmost)⟩
  linarith [hleast.trans h.low]

theorem digits_pos {d : Decimal} (h : IsMiddling d.value) : 0 < d.digits := by
  have hpos := h.pos
  rcases Nat.eq_zero_or_pos d.digits with hzero | hdigits
  · rw [Decimal.value, hzero, Nat.cast_zero, zero_mul] at hpos
    exact absurd hpos (lt_irrefl 0)
  · exact hdigits

/-- A decimal of middling size has few places. -/
theorem exponent_le {d : Decimal} (h : IsMiddling d.value) (hfew : d.digits ≤ 10 ^ 19) :
    d.exponent.natAbs ≤ 200 := by
  have hten := tenPower_pos d.exponent
  have hone : (1 : ℚ) ≤ d.digits := Nat.one_le_cast.mpr h.digits_pos
  have hcast : (d.digits : ℚ) ≤ 10 ^ (19 : ℤ) := by exact_mod_cast hfew
  have hupper : d.exponent < 152 := by
    refine (zpow_lt_zpow_iff_right₀ (by norm_num : (1 : ℚ) < 10)).mp ?_
    calc (10 : ℚ) ^ d.exponent ≤ d.value := le_mul_of_one_le_left hten.le hone
      _ < 2 ^ (152 : ℤ) := h.high
      _ ≤ 10 ^ (152 : ℤ) := zpow_le_zpow_left₀ (by decide) (by norm_num) (by norm_num)
  have hlower : -151 ≤ 19 + d.exponent := by
    refine (zpow_le_zpow_iff_right₀ (by norm_num : (1 : ℚ) < 10)).mp ?_
    calc (10 : ℚ) ^ (-151 : ℤ) ≤ 2 ^ (-151 : ℤ) := by
          rw [zpow_neg, zpow_neg]
          gcongr
          norm_num
      _ ≤ d.value := h.low
      _ ≤ 10 ^ (19 : ℤ) * 10 ^ d.exponent := by
        rw [Decimal.value]
        gcongr
      _ = 10 ^ (19 + d.exponent) := (zpow_add₀ (by norm_num) _ _).symm
  omega

end IsMiddling

/-! ### Numbers from their digits -/

theorem Denotes.isInf_eq_false {x : Float} {negative : Bool} {significand : ℕ} {exponent : ℤ}
    (h : Denotes x negative significand exponent) : x.isInf = false := by
  have hunpack : x.isInf = x.toModel.unpack.isInf := rfl
  rw [hunpack, h.unpack]
  rfl

section Scaled

variable {significand : ℕ} {exponent : ℤ}

/-- A number times a power of ten takes one product or one quotient. -/
theorem exists_timesPower? {x : Float} {m : ℕ} {e : ℤ} (hx : Denotes x false m e) (hpos : 0 < significand)
    (hnear : Near 53 (binary m e) significand) (hexponent : exponent.natAbs ≤ 300)
    (hmiddling : IsMiddling (significand * 10 ^ exponent)) :
    ∃ y m' e', Source.timesPower? 4 x exponent = some y ∧ Denotes y false m' e' ∧
      Near 49 (binary m' e') (significand * 10 ^ exponent) := by
  obtain ⟨n, hn⟩ : ∃ n, n = exponent.natAbs := ⟨_, rfl⟩
  obtain ⟨v, hv⟩ : ∃ v : ℚ, v = significand * 10 ^ exponent := ⟨_, rfl⟩
  obtain ⟨p, q, hpower, hpowerNear⟩ := exists_denotes_powerOfTen (hn ▸ hexponent)
  have hsig : (0 : ℚ) < significand := Nat.cast_pos.mpr hpos
  have hten : (0 : ℚ) < 10 ^ n := by positivity
  rw [← hv] at hmiddling ⊢
  have hsteps : Source.timesPower? 4 x exponent =
      if 0 ≤ exponent then
        if (x * Source.powerOfTen n).isInf then none else some (x * Source.powerOfTen n)
      else some (x / Source.powerOfTen n) := by
    rw [Source.timesPower?, if_pos (by omega), hn]
  by_cases hsign : 0 ≤ exponent
  · have hvalue : v = significand * 10 ^ n := by
      rw [hv, ← zpow_natCast, hn, Int.natAbs_of_nonneg hsign]
    have hexact : Near 51 (binary m e * binary p q) v := hvalue ▸ hnear.mul hpowerNear hsig hten
    obtain ⟨hleast, hmost⟩ := hmiddling.in_range hexact
    obtain ⟨m', e', hy, herror⟩ := hx.mul hpower hleast hmost
    refine ⟨_, m', e', ?_, hy, (Near.mono herror (by decide)).trans hexact⟩
    rw [hsteps, if_pos hsign, if_neg (by rw [hy.isInf_eq_false]; exact Bool.false_ne_true)]
  · have hvalue : v = significand / 10 ^ n := by
      have hexponentEq : exponent = -(n : ℤ) := by omega
      rw [hv, hexponentEq, zpow_neg, zpow_natCast, div_eq_mul_inv]
    have hexact : Near 51 (binary m e / binary p q) v := hvalue ▸ hnear.div hpowerNear hsig hten
    obtain ⟨hleast, hmost⟩ := hmiddling.in_range hexact
    obtain ⟨m', e', hy, herror⟩ := hx.div hpower hleast hmost
    refine ⟨_, m', e', ?_, hy, (Near.mono herror (by decide)).trans hexact⟩
    rw [hsteps, if_neg hsign]

/-- **What the digits stand for** is read as a number that is near it. -/
theorem exists_scaledNumber? (negative : Bool) (hpos : 0 < significand) (hfew : significand ≤ 10 ^ 19)
    (hexponent : exponent.natAbs ≤ 300) (hmiddling : IsMiddling (significand * 10 ^ exponent)) :
    ∃ y m e, Source.scaledNumber? negative significand exponent = some (.double y) ∧ Denotes y negative m e ∧
      Near 49 (binary m e) (significand * 10 ^ exponent) := by
  have hsig : (1 : ℚ) ≤ significand := Nat.one_le_cast.mpr hpos
  have hmany : (significand : ℚ) ≤ 10 ^ 300 := by
    have hcast : (significand : ℚ) ≤ 10 ^ 19 := by exact_mod_cast hfew
    exact hcast.trans (pow_le_pow_right₀ (by norm_num) (by decide))
  have hone : (significand : ℚ) / (1 : ℕ) = significand := by rw [Nat.cast_one, div_one]
  obtain ⟨m, e, hx, hnear⟩ := @exists_denotes_encode significand 1 Nat.one_pos false
    (by rw [hone]; exact tenPower_range.1.trans hsig) (by rw [hone]; exact hmany.trans_lt tenPower_range.2)
  rw [hone] at hnear
  obtain ⟨y, m', e', hread, hy, herror⟩ := exists_timesPower? hx hpos hnear hexponent hmiddling
  have hnumber : Source.scaledNumber? negative significand exponent = some (.double (if negative then -y else y)) := by
    rw [Source.scaledNumber?, hread]
    rfl
  refine ⟨_, m', e', hnumber, ?_, herror⟩
  cases negative
  · exact hy
  · exact hy.neg

end Scaled

/-! ### Written and read -/

/-- **In writing** a number of middling size is made of parts that stand for a number near it. -/
theorem exists_written {x : Float} {negative : Bool} {m : ℕ} {e : ℤ} (hx : Denotes x negative m e)
    (hlow : 2 ^ (-150 : ℤ) ≤ binary m e) (hhigh : binary m e < 2 ^ (150 : ℤ)) :
    ∃ v range whole fraction power, Near 53 v (binary m e) ∧ range < 2 ^ 31 ∧
      WrittenAs v range whole fraction power ∧
      Json.writeNumber (.double x) = signText negative ++ (whole ++ (pointText fraction ++ powerText power)) := by
  obtain ⟨d, hd⟩ : ∃ d, d = Format.double.shortest Layout.document.tie m e := ⟨_, rfl⟩
  obtain ⟨hshortest, hfew⟩ :=
    @Format.shortest_spec .double m e Layout.document.tie hx.full hlow hhigh
  rw [← hd] at hshortest hfew
  have hmiddling := IsMiddling.of_near hlow hhigh hshortest
  have hplaces := hmiddling.exponent_le hfew
  obtain ⟨whole, fraction, power, hwritten, htext⟩ := exists_writtenAs hmiddling.digits_pos hfew
  have hdocument : documentText? x = some ((if negative then "-" else "") ++ Layout.document.write d) := by
    rw [documentText?, hx.partsOf_eq, Layout.writeParts?]
    simp only [if_neg hx.pos.ne', hd]
  refine ⟨_, _, whole, fraction, power, hshortest, by omega, hwritten, ?_⟩
  rw [Json.writeNumber, hdocument, Option.getD_some, String.toList_append, htext]
  cases negative <;> rfl

/-- **In reading** such parts become a number near what they stand for. -/
theorem exists_number? {v : ℚ} {range : ℕ} {whole fraction : List Char} {power : Option ℤ} (hv : IsMiddling v)
    (h : WrittenAs v range whole fraction power) (hrange : range < 2 ^ 31) (negative : Bool) :
    ∃ y m e, Source.number? ⟨negative, whole, fraction, power.getD 0⟩ false = some (.double y) ∧
      Denotes y negative m e ∧ Near 49 (binary m e) v := by
  obtain ⟨d, hd⟩ : ∃ d : Decimal, d = ⟨digitsValue (whole ++ fraction), power.getD 0 - fraction.length⟩ := ⟨_, rfl⟩
  have hvalue : d.value = v := by
    rw [hd]
    exact h.value
  have hfew : d.digits ≤ 10 ^ 19 := hd ▸ h.digits_le
  have hmiddling : IsMiddling d.value := hvalue.symm ▸ hv
  obtain ⟨y, m, e, hnumber, hy, hnear⟩ := exists_scaledNumber? negative hmiddling.digits_pos hfew
    ((hmiddling.exponent_le hfew).trans (by decide)) hmiddling
  refine ⟨y, m, e, ?_, hy, hvalue ▸ hnear⟩
  rw [Source.number?_of_writtenAs h hrange, ← hnumber, hd]

/-! ### Single precision -/

namespace Single

variable {x : Single} {negative : Bool} {significand : ℕ} {exponent : ℤ}

/-- The words of single precision. -/
theorem fits_of_parts (h : x.parts = .finite negative significand exponent) :
    Format.single.Fits significand exponent ∧ x.bits.toNat = Format.single.word negative significand exponent :=
  Format.fits_of_decode (x.bits.toNat_lt.trans_le (by decide)) (by decide) h

/-- What the bounds of the format are in single precision. -/
theorem single_fits (h : Format.single.Fits significand exponent) :
    significand < 2 ^ 24 ∧ -149 ≤ exponent ∧ exponent ≤ 104 := by
  have hunit : twoTo Format.single.fractionBits = 2 ^ 23 := rfl
  have hmin : Format.single.minExponent = -149 := rfl
  have htop : Format.single.topExponent = 255 := rfl
  have hlt := h.lt
  have hleast := h.least
  have hmost := h.most
  rw [hunit] at hlt
  rw [hmin] at hleast hmost
  rw [htop] at hmost
  omega

/-- A significand that is not zero has zeros to come until it is full. -/
theorem exists_fullShift (hpos : 0 < significand) (hlt : significand < 2 ^ 24) :
    ∃ shift ≤ 52, 2 ^ 52 ≤ significand * 2 ^ shift ∧ significand * 2 ^ shift < 2 ^ 53 := by
  have hlog : significand.log2 < 24 := (Nat.log2_lt hpos.ne').mpr hlt
  obtain ⟨shift, hshift⟩ : ∃ shift, shift + significand.log2 = 52 := ⟨52 - significand.log2, by omega⟩
  refine ⟨shift, by omega, ?_, ?_⟩
  · rw [← hshift, Nat.pow_add, Nat.mul_comm]
    exact Nat.mul_le_mul_right _ (Nat.log2_self_le hpos.ne')
  · have hnext : 2 ^ 53 = 2 ^ (significand.log2 + 1) * 2 ^ shift := by
      rw [← Nat.pow_add]
      congr 1
      omega
    rw [hnext]
    exact Nat.mul_lt_mul_of_pos_right Nat.lt_log2_self (Nat.two_pow_pos shift)

/-- **In double precision** a number is the same, with a full significand. -/
theorem exists_denotes_toDouble (h : x.parts = .finite negative significand exponent) (hpos : 0 < significand) :
    ∃ m e, Denotes x.toDouble negative m e ∧ binary m e = binary significand exponent := by
  obtain ⟨hlt, hleast, hmost⟩ := single_fits (fits_of_parts h).1
  obtain ⟨shift, hshift, hfull, hless⟩ := exists_fullShift hpos hlt
  have hfits : Format.double.Fits (significand * 2 ^ shift) (exponent - shift) :=
    (double_fits_iff hfull).mpr ⟨hless, by omega, by omega⟩
  have hvalue : binary (significand * 2 ^ shift) (exponent - shift) = binary significand exponent := by
    rw [binary, binary, zpow_sub₀ two_ne_zero, zpow_natCast]
    push_cast
    field_simp
  refine ⟨_, _, ?_, hvalue⟩
  have hexact : ((scaled significand 1 exponent).1 / (scaled significand 1 exponent).2 : ℚ) =
      binary (significand * 2 ^ shift) (exponent - shift) := by
    rw [hvalue, scaled_value, Nat.cast_one, div_one, binary]
  have hword : Format.double.encode negative (scaled significand 1 exponent).1 (scaled significand 1 exponent).2 =
      Format.double.word negative (significand * 2 ^ shift) (exponent - shift) :=
    Format.encode_eq_word hfits (by omega) (scaled_pos exponent Nat.one_pos) (by
      rw [hexact, sub_self, abs_zero]
      exact div_pos (twoPower_pos _) (by norm_num))
  have hdouble : x.toDouble = .ofBits (.ofNat (Format.double.encode negative (scaled significand 1 exponent).1
      (scaled significand 1 exponent).2)) := by
    rw [toDouble, h]
    rfl
  rw [hdouble, hword]
  exact Denotes.of_word hfull hfits negative

/-- **Near enough** in double precision is the number in single precision. -/
theorem ofDouble_eq (h : x.parts = .finite negative significand exponent) (hpos : 0 < significand) {y : Float}
    {m : ℕ} {e : ℤ} (hy : Denotes y negative m e) (hnear : Near 26 (binary m e) (binary significand exponent)) :
    ofDouble y = x := by
  obtain ⟨hfits, hbits⟩ := fits_of_parts h
  obtain ⟨hlt, -, -⟩ := single_fits hfits
  have hunit := twoPower_pos exponent
  have hexact : ((scaled m 1 e).1 / (scaled m 1 e).2 : ℚ) = binary m e := by
    rw [scaled_value, Nat.cast_one, div_one, binary]
  have herror : |binary m e - binary significand exponent| < 2 ^ exponent / 4 := by
    have hcast : (significand : ℚ) < 2 ^ 24 := by exact_mod_cast hlt
    have hless : binary significand exponent < 2 ^ 24 * 2 ^ exponent := by
      rw [binary]
      gcongr
    rw [Near] at hnear
    linarith
  have hword : Format.single.encode negative (scaled m 1 e).1 (scaled m 1 e).2 =
      Format.single.word negative significand exponent :=
    Format.encode_eq_word hfits hpos (scaled_pos e Nat.one_pos) (by rw [hexact]; exact herror)
  have hof : ofDouble y = ⟨.ofNat (Format.single.encode negative (scaled m 1 e).1 (scaled m 1 e).2)⟩ := by
    have hparts : Format.double.decode y.toBits.toNat = .finite negative m e := hy.partsOf_eq
    rw [ofDouble, hparts]
    rfl
  rw [hof, hword, ← hbits, UInt32.ofNat_toNat]

/-- What a finite number other than zero is worth is in the range of single precision. -/
theorem binary_range (hfits : Format.single.Fits significand exponent) (hpos : 0 < significand) :
    2 ^ (-150 : ℤ) ≤ binary significand exponent ∧ binary significand exponent < 2 ^ (150 : ℤ) := by
  obtain ⟨hlt, hleast, hmost⟩ := single_fits hfits
  have hone : (1 : ℚ) ≤ significand := Nat.one_le_cast.mpr hpos
  have hless : (significand : ℚ) < 2 ^ (24 : ℤ) := by exact_mod_cast hlt
  have hunit := twoPower_pos exponent
  rw [binary]
  constructor
  · calc (2 : ℚ) ^ (-150 : ℤ) ≤ 2 ^ exponent := zpow_le_zpow_right₀ one_le_two (by omega)
      _ ≤ significand * 2 ^ exponent := le_mul_of_one_le_left hunit.le hone
  · calc (significand : ℚ) * 2 ^ exponent < 2 ^ (24 : ℤ) * 2 ^ exponent := by gcongr
      _ = 2 ^ (24 + exponent) := (zpow_add₀ two_ne_zero _ _).symm
      _ ≤ 2 ^ (150 : ℤ) := zpow_le_zpow_right₀ one_le_two (by omega)

/-- The decoder of numbers does not look at how deep they stand. -/
theorem single_depth (depth : ℕ) (tree : Source) : Decoder.single depth tree = Decoder.single 0 tree := by
  cases tree <;> rfl

/-- Both zeros are read as they were. -/
theorem readBack_zero (h : x.parts = .finite negative 0 exponent) (depth : ℕ) :
    (Json.numberSource? (.double x.toDouble)).bind (Decoder.single depth) = some x := by
  obtain ⟨hfits, hbits⟩ := fits_of_parts h
  have hexponent : exponent = Format.single.minExponent := by
    by_contra hne
    exact absurd (hfits.full hne) (by decide)
  have hzero : x = ⟨0⟩ ∨ x = ⟨0x80000000⟩ := by
    have hword : x = ⟨.ofNat (Format.single.word negative 0 Format.single.minExponent)⟩ := by
      rw [← hexponent, ← hbits, UInt32.ofNat_toNat]
    cases negative
    · exact .inl hword
    · exact .inr hword
  have hdepth : Decoder.single depth = Decoder.single 0 := funext (single_depth depth)
  rw [hdepth]
  rcases hzero with rfl | rfl
  · decide +kernel
  · decide +kernel

/-- **A finite number** in a document is read as it was, bit for bit. -/
theorem readBack (h : x.isFinite = true) (depth : ℕ) :
    (Json.numberSource? (.double x.toDouble)).bind (Decoder.single depth) = some x := by
  obtain ⟨negative, significand, exponent, hparts⟩ :
      ∃ negative significand exponent, x.parts = .finite negative significand exponent := by
    rw [isFinite] at h
    split at h
    · next negative significand exponent hparts => exact ⟨negative, significand, exponent, hparts⟩
    · cases h
  rcases Nat.eq_zero_or_pos significand with rfl | hpos
  · exact readBack_zero hparts depth
  obtain ⟨m, e, hdouble, hvalue⟩ := exists_denotes_toDouble hparts hpos
  obtain ⟨hlow, hhigh⟩ := binary_range (fits_of_parts hparts).1 hpos
  rw [← hvalue] at hlow hhigh
  obtain ⟨v, range, whole, fraction, power, hnear, hrange, hwritten, hwrite⟩ := exists_written hdouble hlow hhigh
  have hread : Json.numberSource? (.double x.toDouble) =
      some (.number ⟨negative, whole, fraction, power.getD 0⟩ false) := by
    rw [Json.numberSource?, hwrite, readNumber?_parts hwritten.isWholePart hwritten.areDigits, hwritten.notWhole]
  obtain ⟨y, m', e', hnumber, hy, herror⟩ :=
    exists_number? (.of_near hlow hhigh hnear) hwritten hrange negative
  have hsame : ofDouble y = x := by
    refine ofDouble_eq hparts hpos hy ?_
    rw [← hvalue]
    exact (herror.mono (by decide : 28 ≤ 49)).trans (hnear.mono (by decide))
  rw [hread, Option.bind_some, Decoder.single, hnumber]
  exact congrArg some hsame

end Single

end Number

end Orchestration
