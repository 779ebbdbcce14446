import Orchestration.Number.Shortest
import Orchestration.Proofs.BinaryWords

/-!
# How far shortest decimals are off

The shortest decimal of a number lies in the interval of what rounds to the number, or it was cut off after so many
digits. In both cases it is off by less than the number's last bit, and has few digits.

* `Decimal.value` — the number that a decimal stands for.
* `floorLog10_spec` — the power of ten below a fraction.
* `Rounding.between_of_holds` — a decimal that reads back lies between the ends of its interval.
* `Rounding.search_spec` — what comes of trying finer and finer grids.
* `Format.shortest_spec` — how far the shortest decimal is off, and how many digits it has.
-/

namespace Orchestration.Number

/-- The number `digits · 10 ^ exponent`. -/
def Decimal.value (x : Decimal) : ℚ := x.digits * 10 ^ x.exponent

theorem tenPower_pos (e : ℤ) : (0 : ℚ) < 10 ^ e := zpow_pos (by norm_num) e

/-! ### Powers of ten -/

theorem perPowerOfTen_pos {num den : ℕ} (power : ℤ) (hden : 0 < den) : 0 < (perPowerOfTen num den power).2 := by
  rw [perPowerOfTen]
  split
  · exact Nat.mul_pos hden (tenTo_pos _)
  · exact hden

theorem perPowerOfTen_value (num den : ℕ) (power : ℤ) :
    ((perPowerOfTen num den power).1 : ℚ) / (perPowerOfTen num den power).2 = num / den / 10 ^ power := by
  rw [perPowerOfTen]
  split
  · next h =>
    simp only [Nat.cast_mul, cast_tenTo]
    rw [Int.toNat_of_nonneg h, div_div]
  · next h =>
    simp only [Nat.cast_mul, cast_tenTo]
    rw [Int.toNat_of_nonneg (by omega), zpow_neg, mul_div_right_comm, ← div_eq_mul_inv]

/-- What is left of a fraction on a grid is compared with a whole number as the fraction is. -/
theorem mul_le_perPowerOfTen_iff {num den : ℕ} (power : ℤ) (hden : 0 < den) (n : ℕ) :
    n * (perPowerOfTen num den power).2 ≤ (perPowerOfTen num den power).1 ↔ (n * 10 ^ power : ℚ) ≤ num / den := by
  have hpos : (0 : ℚ) < (perPowerOfTen num den power).2 := Nat.cast_pos.mpr (perPowerOfTen_pos _ hden)
  rw [← le_div_iff₀ (tenPower_pos power), ← perPowerOfTen_value, le_div_iff₀ hpos]
  exact_mod_cast Iff.rfl

theorem perPowerOfTen_le_mul_iff {num den : ℕ} (power : ℤ) (hden : 0 < den) (n : ℕ) :
    (perPowerOfTen num den power).1 ≤ n * (perPowerOfTen num den power).2 ↔ (num / den : ℚ) ≤ n * 10 ^ power := by
  have hpos : (0 : ℚ) < (perPowerOfTen num den power).2 := Nat.cast_pos.mpr (perPowerOfTen_pos _ hden)
  rw [← div_le_iff₀ (tenPower_pos power), ← perPowerOfTen_value, div_le_iff₀ hpos]
  exact_mod_cast Iff.rfl

/-- The point of a grid below a fraction, and the one above it. -/
theorem perPowerOfTen_floor (num den : ℕ) (power : ℤ) :
    (((perPowerOfTen num den power).1 / (perPowerOfTen num den power).2 : ℕ) : ℚ) ≤ num / den / 10 ^ power ∧
      (num / den / 10 ^ power : ℚ) <
        ((perPowerOfTen num den power).1 / (perPowerOfTen num den power).2 : ℕ) + 1 := by
  rw [← perPowerOfTen_value]
  exact ⟨Nat.cast_div_le, div_lt_natDiv_add_one _ _⟩

/-- Whether a power of ten is at most a power of two, in natural numbers. -/
def tenAtMostTwo (ten two : ℤ) : Bool :=
  Nat.ble (tenTo ten.toNat * twoTo (-two).toNat) (twoTo two.toNat * tenTo (-ten).toNat)

/-- Whether a power of two is at most a power of ten, in natural numbers. -/
def twoAtMostTen (two ten : ℤ) : Bool :=
  Nat.ble (twoTo two.toNat * tenTo (-ten).toNat) (tenTo ten.toNat * twoTo (-two).toNat)

theorem cast_tenTo_split (e : ℤ) : (tenTo e.toNat : ℚ) = 10 ^ e * tenTo (-e).toNat := by
  rw [cast_tenTo, cast_tenTo, ← zpow_add₀ (by norm_num)]
  congr 1
  omega

theorem cast_twoTo_split (e : ℤ) : (twoTo e.toNat : ℚ) = 2 ^ e * twoTo (-e).toNat := by
  rw [cast_twoTo, cast_twoTo, ← zpow_add₀ two_ne_zero]
  congr 1
  omega

/-- The two natural numbers are the two powers, both times the same. -/
theorem exists_commonUnit (ten two : ℤ) :
    ∃ unit : ℚ, 0 < unit ∧ ((tenTo ten.toNat * twoTo (-two).toNat : ℕ) : ℚ) = 10 ^ ten * unit ∧
      ((twoTo two.toNat * tenTo (-ten).toNat : ℕ) : ℚ) = 2 ^ two * unit := by
  refine ⟨tenTo (-ten).toNat * twoTo (-two).toNat, ?_, ?_, ?_⟩
  · exact mul_pos (Nat.cast_pos.mpr (tenTo_pos _)) (Nat.cast_pos.mpr (twoTo_pos _))
  · rw [Nat.cast_mul, cast_tenTo_split ten]
    ring
  · rw [Nat.cast_mul, cast_twoTo_split two]
    ring

theorem tenPower_le_twoPower {ten two : ℤ} (h : tenAtMostTwo ten two = true) : (10 : ℚ) ^ ten ≤ 2 ^ two := by
  obtain ⟨unit, hunit, hten, htwo⟩ := exists_commonUnit ten two
  have hcast := (Nat.cast_le (α := ℚ)).mpr (Nat.le_of_ble_eq_true h)
  rw [hten, htwo] at hcast
  exact le_of_mul_le_mul_right hcast hunit

theorem twoPower_le_tenPower {two ten : ℤ} (h : twoAtMostTen two ten = true) : (2 : ℚ) ^ two ≤ 10 ^ ten := by
  obtain ⟨unit, hunit, hten, htwo⟩ := exists_commonUnit ten two
  have hcast := (Nat.cast_le (α := ℚ)).mpr (Nat.le_of_ble_eq_true h)
  rw [hten, htwo] at hcast
  exact le_of_mul_le_mul_right hcast hunit

/-- The power of ten that is guessed from a power of two. -/
def guessLog10 (log : ℤ) : ℤ := log * 30103 / 100000

/-- The guess is at most one off, for the powers of two of single-precision numbers. -/
theorem guessLog10_table : ∀ n : ℕ, n < 300 →
    tenAtMostTwo (guessLog10 ((n : ℤ) - 150) - 1) ((n : ℤ) - 150) = true ∧
      twoAtMostTen ((n : ℤ) - 150 + 1) (guessLog10 ((n : ℤ) - 150) + 2) = true := by
  decide +kernel

theorem guessLog10_spec {log : ℤ} (hmin : -150 ≤ log) (hmax : log < 150) :
    (10 : ℚ) ^ (guessLog10 log - 1) ≤ 2 ^ log ∧ (2 : ℚ) ^ (log + 1) ≤ 10 ^ (guessLog10 log + 2) := by
  obtain ⟨hlower, hupper⟩ := guessLog10_table (log + 150).toNat (by omega)
  have hindex : ((log + 150).toNat : ℤ) - 150 = log := by omega
  rw [hindex] at hlower hupper
  exact ⟨tenPower_le_twoPower hlower, twoPower_le_tenPower hupper⟩

/-- How the guess is corrected. -/
theorem floorLog10_eq {num den : ℕ} (hden : 0 < den) {guess : ℤ} (hguess : guess = guessLog10 (floorLog2 num den)) :
    floorLog10 num den =
      if (num / den : ℚ) < 10 ^ guess then guess - 1
      else if (10 : ℚ) ^ (guess + 1) ≤ num / den then guess + 1 else guess := by
  have hsplit : floorLog10 num den =
      if (perPowerOfTen num den guess).1 < (perPowerOfTen num den guess).2 then guess - 1
      else if 10 * (perPowerOfTen num den guess).2 ≤ (perPowerOfTen num den guess).1 then guess + 1 else guess := by
    rw [hguess]
    rfl
  have hless : (perPowerOfTen num den guess).1 < (perPowerOfTen num den guess).2 ↔ (num / den : ℚ) < 10 ^ guess := by
    have hone := @mul_le_perPowerOfTen_iff num den guess hden 1
    rw [Nat.one_mul, Nat.cast_one, one_mul] at hone
    rw [← not_le, hone, not_le]
  have hnext : 10 * (perPowerOfTen num den guess).2 ≤ (perPowerOfTen num den guess).1 ↔
      (10 : ℚ) ^ (guess + 1) ≤ num / den := by
    rw [mul_le_perPowerOfTen_iff guess hden, Nat.cast_ofNat, zpow_add_one₀ (by norm_num), mul_comm]
  rw [hsplit]
  simp only [hless, hnext]

/-- **The power of ten below a fraction** is at most the fraction, and the next one is more. -/
theorem floorLog10_spec {num den : ℕ} (hnum : 0 < num) (hden : 0 < den) (hlow : 2 ^ (-150 : ℤ) ≤ (num / den : ℚ))
    (hhigh : (num / den : ℚ) < 2 ^ (150 : ℤ)) :
    (10 : ℚ) ^ floorLog10 num den ≤ num / den ∧ (num / den : ℚ) < 10 ^ (floorLog10 num den + 1) := by
  obtain ⟨hlogLower, hlogUpper⟩ := floorLog2_spec hnum hden
  have hmin := (zpow_lt_zpow_iff_right₀ (one_lt_two (α := ℚ))).mp (hlow.trans_lt hlogUpper)
  have hmax := (zpow_lt_zpow_iff_right₀ (one_lt_two (α := ℚ))).mp (hlogLower.trans_lt hhigh)
  obtain ⟨hguessLower, hguessUpper⟩ := guessLog10_spec (Int.lt_add_one_iff.mp hmin) hmax
  have hlower := hguessLower.trans hlogLower
  have hupper := hlogUpper.trans_le hguessUpper
  rw [floorLog10_eq hden rfl]
  split
  · next hbelow =>
    rw [sub_add_cancel]
    exact ⟨hlower, hbelow⟩
  · next habove =>
    split
    · next hnext => exact ⟨hnext, by rwa [add_assoc]⟩
    · next hnext => exact ⟨not_lt.mp habove, not_le.mp hnext⟩

/-! ### Decimals that read back -/

namespace Rounding

variable {r : Rounding} {x : Decimal} {tie : Tie}

/-- A decimal that reads back lies between the ends. -/
theorem between_of_holds (hden : 0 < r.den) (h : r.holds x = true) :
    (r.low / r.den : ℚ) ≤ x.value ∧ x.value ≤ (r.high / r.den : ℚ) := by
  have hsame : (perPowerOfTen r.low r.den x.exponent).2 = (perPowerOfTen r.high r.den x.exponent).2 := by
    rw [perPowerOfTen, perPowerOfTen]
    split <;> rfl
  obtain ⟨hlow, hhigh⟩ :
      (perPowerOfTen r.low r.den x.exponent).1 ≤ x.digits * (perPowerOfTen r.low r.den x.exponent).2 ∧
        x.digits * (perPowerOfTen r.low r.den x.exponent).2 ≤ (perPowerOfTen r.high r.den x.exponent).1 := by
    rw [holds] at h
    simp only at h
    split at h
    · obtain ⟨hle, hge⟩ := Bool.and_eq_true_iff.mp h
      exact ⟨of_decide_eq_true hle, of_decide_eq_true hge⟩
    · obtain ⟨hlt, hgt⟩ := Bool.and_eq_true_iff.mp h
      exact ⟨(of_decide_eq_true hlt).le, (of_decide_eq_true hgt).le⟩
  rw [hsame] at hhigh
  exact ⟨(perPowerOfTen_le_mul_iff _ hden _).mp hlow, (mul_le_perPowerOfTen_iff _ hden _).mp hhigh⟩

/-- What is found on a grid reads back, and is one of the two points next to the number. -/
theorem onGrid?_spec {power : ℤ} (h : r.onGrid? tie power = some x) :
    r.holds x = true ∧ x.exponent = power ∧
      x.digits ≤ (perPowerOfTen r.value r.den power).1 / (perPowerOfTen r.value r.den power).2 + 1 := by
  rw [onGrid?] at h
  simp only at h
  split at h
  · cases h
  · next hdown _ =>
    obtain rfl := Option.some.inj h
    exact ⟨hdown, rfl, Nat.le_succ _⟩
  · next _ hup =>
    obtain rfl := Option.some.inj h
    exact ⟨hup, rfl, le_refl _⟩
  · next hdown hup =>
    split at h
    · obtain rfl := Option.some.inj h
      exact ⟨hdown, rfl, Nat.le_succ _⟩
    · split at h
      · obtain rfl := Option.some.inj h
        exact ⟨hup, rfl, le_refl _⟩
      · split at h
        · obtain rfl := Option.some.inj h
          exact ⟨hup, rfl, le_refl _⟩
        · obtain rfl := Option.some.inj h
          split
          · exact ⟨hdown, rfl, Nat.le_succ _⟩
          · exact ⟨hup, rfl, le_refl _⟩

/-- **Finer and finer grids** lead to a decimal that reads back, or to the last grid's point below the number. -/
theorem search_spec (tries : ℕ) (power : ℤ) :
    power - tries ≤ (r.search tie tries power).exponent ∧ (r.search tie tries power).exponent ≤ power ∧
      ((r.search tie tries power).digits : ℚ) ≤ r.value / r.den / 10 ^ (r.search tie tries power).exponent + 1 ∧
      (r.holds (r.search tie tries power) = true ∨
        ((r.search tie tries power).value ≤ r.value / r.den ∧
          (r.value / r.den : ℚ) < (r.search tie tries power).value + 10 ^ (power - tries))) := by
  induction tries generalizing power with
  | zero =>
    obtain ⟨point, hpoint⟩ : ∃ point, point = perPowerOfTen r.value r.den power := ⟨_, rfl⟩
    have hsearch : r.search tie 0 power = ⟨point.1 / point.2, power⟩ := by rw [hpoint]; rfl
    have hten := tenPower_pos power
    obtain ⟨hle, hlt⟩ := perPowerOfTen_floor r.value r.den power
    rw [← hpoint] at hle hlt
    rw [hsearch, Nat.cast_zero, sub_zero]
    refine ⟨le_refl _, le_refl _, by simp only; linarith, .inr ⟨?_, ?_⟩⟩
    · rw [Decimal.value, ← le_div_iff₀ hten]
      exact hle
    · rw [div_lt_iff₀ hten] at hlt
      rw [Decimal.value]
      simp only
      linarith
  | succ tries ih =>
    cases hgrid : r.onGrid? tie power with
    | some x =>
      have hsearch : r.search tie (tries + 1) power = x := by rw [search, hgrid]
      obtain ⟨hholds, hexponent, hdigits⟩ := onGrid?_spec hgrid
      have hcast : (x.digits : ℚ) ≤
          ((perPowerOfTen r.value r.den power).1 / (perPowerOfTen r.value r.den power).2 : ℕ) + 1 := by
        exact_mod_cast hdigits
      obtain ⟨hle, -⟩ := perPowerOfTen_floor r.value r.den power
      rw [hsearch]
      exact ⟨by omega, by omega, by rw [hexponent]; linarith, .inl hholds⟩
    | none =>
      have hsearch : r.search tie (tries + 1) power = r.search tie tries (power - 1) := by rw [search, hgrid]
      obtain ⟨hleast, hmost, hdigits, hnear⟩ := ih (power - 1)
      have hlast : power - 1 - (tries : ℤ) = power - ((tries + 1 : ℕ) : ℤ) := by push_cast; ring
      rw [hlast] at hleast hnear
      rw [hsearch]
      exact ⟨hleast, by omega, hdigits, hnear⟩

end Rounding

/-! ### Shortest decimals -/

namespace Format

variable {f : Format} {significand : ℕ} {exponent : ℤ} {tie : Tie}

theorem four_mul_twoPower (exponent : ℤ) : (4 : ℚ) * 2 ^ (exponent - 2) = 2 ^ exponent := by
  rw [zpow_sub₀ two_ne_zero]
  norm_num
  ring

theorem rounding_den_pos : 0 < (f.rounding significand exponent).den := scaled_pos _ Nat.one_pos

/-- The number, in terms of its interval. -/
theorem rounding_value :
    ((f.rounding significand exponent).value / (f.rounding significand exponent).den : ℚ) =
      binary significand exponent := by
  have hscaled := scaled_value 1 1 (exponent - 2)
  rw [Nat.cast_one, div_one, one_mul] at hscaled
  have hvalue : ((f.rounding significand exponent).value : ℚ) / (f.rounding significand exponent).den =
      ((4 * significand * (scaled 1 1 (exponent - 2)).1 : ℕ) : ℚ) / (scaled 1 1 (exponent - 2)).2 := rfl
  have hquarter := four_mul_twoPower exponent
  rw [hvalue, binary, ← hquarter, ← hscaled]
  push_cast
  ring

/-- The ends of the interval are no further away than half a last bit. -/
theorem rounding_ends (hpos : 0 < significand) :
    binary significand exponent - 2 ^ exponent / 2 ≤
        ((f.rounding significand exponent).low / (f.rounding significand exponent).den : ℚ) ∧
      ((f.rounding significand exponent).high / (f.rounding significand exponent).den : ℚ) =
        binary significand exponent + 2 ^ exponent / 2 := by
  have hscaled := scaled_value 1 1 (exponent - 2)
  rw [Nat.cast_one, div_one, one_mul] at hscaled
  obtain ⟨below, hbelow, hlow⟩ : ∃ below ≤ 2, ((f.rounding significand exponent).low : ℚ) /
      (f.rounding significand exponent).den =
        (((4 * significand - below) * (scaled 1 1 (exponent - 2)).1 : ℕ) : ℚ) / (scaled 1 1 (exponent - 2)).2 := by
    refine ⟨if significand = twoTo f.fractionBits ∧ f.minExponent < exponent then 1 else 2, ?_, rfl⟩
    split <;> omega
  have hhigh : ((f.rounding significand exponent).high : ℚ) / (f.rounding significand exponent).den =
      (((4 * significand + 2) * (scaled 1 1 (exponent - 2)).1 : ℕ) : ℚ) / (scaled 1 1 (exponent - 2)).2 := rfl
  have hquarter := four_mul_twoPower exponent
  have hunit := twoPower_pos (exponent - 2)
  constructor
  · have hcast : ((4 * significand - below : ℕ) : ℚ) = 4 * significand - below := by
      rw [Nat.cast_sub (by omega)]
      push_cast
      rfl
    have hfew : (below : ℚ) ≤ 2 := by exact_mod_cast hbelow
    rw [hlow, Nat.cast_mul, mul_div_assoc, hscaled, hcast, binary, ← hquarter]
    nlinarith
  · rw [hhigh, Nat.cast_mul, mul_div_assoc, hscaled, binary, ← hquarter]
    push_cast
    ring

/-- A decimal that reads back is no further away than half a last bit. -/
theorem abs_sub_le_of_holds {x : Decimal} (hfull : 2 ^ 52 ≤ significand)
    (h : (f.rounding significand exponent).holds x = true) :
    |x.value - binary significand exponent| * 2 ^ 53 ≤ binary significand exponent := by
  obtain ⟨hlower, hupper⟩ := Rounding.between_of_holds rounding_den_pos h
  obtain ⟨hlow, hhigh⟩ := @rounding_ends f significand exponent (by omega)
  have hhalf : |x.value - binary significand exponent| ≤ 2 ^ exponent / 2 := by
    rw [abs_le]
    constructor <;> linarith
  have hmany : (2 : ℚ) ^ 52 ≤ significand := by exact_mod_cast hfull
  have hunit := twoPower_pos exponent
  calc |x.value - binary significand exponent| * 2 ^ 53 ≤ 2 ^ exponent / 2 * 2 ^ 53 := by gcongr
    _ = 2 ^ 52 * 2 ^ exponent := by ring
    _ ≤ significand * 2 ^ exponent := by gcongr

/-- A decimal that is cut off after nineteen digits is off by less than the twentieth. -/
theorem abs_sub_le_of_cut {x : Decimal} {v : ℚ} {power : ℤ} (hpower : 10 ^ power ≤ v) (hbelow : x.value ≤ v)
    (habove : v < x.value + 10 ^ (power - 18)) : |x.value - v| * 2 ^ 53 ≤ v := by
  have hcut : |x.value - v| ≤ 10 ^ (power - 18) := by
    rw [abs_le]
    have hten := tenPower_pos (power - 18)
    constructor <;> linarith
  have hscale : (10 : ℚ) ^ (power - 18) = 10 ^ power / 10 ^ 18 := by
    rw [zpow_sub₀ (by norm_num)]
    norm_num
  calc |x.value - v| * 2 ^ 53 ≤ 10 ^ power / 10 ^ 18 * 2 ^ 53 := by rw [← hscale]; gcongr
    _ ≤ 10 ^ power := by
      have hten := tenPower_pos power
      rw [div_mul_eq_mul_div, div_le_iff₀ (by norm_num)]
      gcongr
      norm_num
    _ ≤ v := hpower

/-- The search for the shortest decimal begins with the power of ten below the number. -/
theorem exists_shortest_eq (hlow : 2 ^ (-150 : ℤ) ≤ binary significand exponent)
    (hhigh : binary significand exponent < 2 ^ (150 : ℤ)) :
    ∃ power : ℤ, f.shortest tie significand exponent = (f.rounding significand exponent).search tie 18 power ∧
      10 ^ power ≤ binary significand exponent ∧ binary significand exponent < 10 ^ (power + 1) := by
  have hvalue := @rounding_value f significand exponent
  have hnum : 0 < (f.rounding significand exponent).value :=
    num_pos_of_pos (hvalue ▸ (twoPower_pos _).trans_le hlow)
  have htens := floorLog10_spec hnum rounding_den_pos (hvalue ▸ hlow) (hvalue ▸ hhigh)
  rw [hvalue] at htens
  exact ⟨_, rfl, htens⟩

/-- **The shortest decimal** of a number with a full significand is less than a last bit off, and has at most twenty
digits. -/
theorem shortest_spec (hfull : 2 ^ 52 ≤ significand) (hlow : 2 ^ (-150 : ℤ) ≤ binary significand exponent)
    (hhigh : binary significand exponent < 2 ^ (150 : ℤ)) :
    |(f.shortest tie significand exponent).value - binary significand exponent| * 2 ^ 53 ≤
        binary significand exponent ∧
      (f.shortest tie significand exponent).digits ≤ 10 ^ 19 := by
  obtain ⟨power, hshortest, htenLower, htenUpper⟩ := @exists_shortest_eq f _ _ tie hlow hhigh
  obtain ⟨hleast, -, hdigits, hnear⟩ := @Rounding.search_spec (f.rounding significand exponent) tie 18 power
  rw [← hshortest] at hleast hdigits hnear
  rw [rounding_value] at hdigits hnear
  obtain ⟨x, hx⟩ : ∃ x, x = f.shortest tie significand exponent := ⟨_, rfl⟩
  rw [← hx] at hleast hdigits hnear ⊢
  constructor
  · rcases hnear with hholds | ⟨hbelow, habove⟩
    · exact abs_sub_le_of_holds hfull hholds
    · exact abs_sub_le_of_cut htenLower hbelow habove
  · have hten := tenPower_pos x.exponent
    have hratio : binary significand exponent / 10 ^ x.exponent < 10 ^ 19 := by
      rw [div_lt_iff₀ hten]
      have hstep : (10 : ℚ) ^ (power + 1) ≤ 10 ^ 19 * 10 ^ x.exponent := by
        rw [← zpow_natCast, ← zpow_add₀ (by norm_num)]
        exact zpow_le_zpow_right₀ (by norm_num) (by push_cast; omega)
      exact htenUpper.trans_le hstep
    have hless : (x.digits : ℚ) < 10 ^ 19 + 1 := by linarith
    exact Nat.le_of_lt_succ (by exact_mod_cast hless)

end Format

end Orchestration.Number
