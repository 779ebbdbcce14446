import Mathlib.Algebra.Order.Field.Power
import Mathlib.Algebra.Order.Floor.Semifield
import Mathlib.Data.Rat.Floor
import Mathlib.Tactic
import Orchestration.Number.Binary

/-!
# Words and the numbers they stand for

A finite number of a format has one significand that takes as many bits as it can, and one word. A fraction that is
nearer to such a number than a quarter of its last bit is written as that word, and any fraction in the range of the
format is written as the word of a number that is no further away than one last bit.

* `Format.Fits` — the significands and exponents that numbers of a format have, and `Format.word`, their words.
* `Format.decode_word`, `Format.fits_of_decode` — a word stands for its number, and finite numbers have such words.
* `floorLog2_spec`, `abs_roundToEven_sub_le` — what the two roundings do, in terms of rational numbers.
* `Format.encode_eq_word` — the word of a fraction that is near enough.
* `Format.exists_encode_eq_word` — the word of any fraction in range, and how far it is off.
-/

namespace Orchestration.Number

/-! ### Fractions -/

/-- The number `significand · 2 ^ exponent`. -/
def binary (significand : ℕ) (exponent : ℤ) : ℚ := significand * 2 ^ exponent

theorem cast_twoTo (n : ℕ) : (twoTo n : ℚ) = 2 ^ (n : ℤ) := by
  rw [zpow_natCast]
  exact Nat.cast_pow 2 n

theorem cast_tenTo (n : ℕ) : (tenTo n : ℚ) = 10 ^ (n : ℤ) := by
  rw [zpow_natCast]
  exact Nat.cast_pow 10 n

theorem twoPower_pos (e : ℤ) : (0 : ℚ) < 2 ^ e := zpow_pos two_pos e

/-- A fraction is less than one above what division leaves of it. -/
theorem div_lt_natDiv_add_one (n d : ℕ) : (n / d : ℚ) < (n / d : ℕ) + 1 := by
  rw [← Nat.floor_div_eq_div (K := ℚ) n d]
  exact Nat.lt_floor_add_one _

theorem num_pos_of_pos {num den : ℕ} (h : (0 : ℚ) < num / den) : 0 < num := by
  refine Nat.pos_of_ne_zero fun hzero => ?_
  rw [hzero, Nat.cast_zero, zero_div] at h
  exact lt_irrefl 0 h

/-- The power of two that comes next is twice as large. -/
theorem twoPower_succ (e : ℤ) : (2 : ℚ) ^ (e + 1) = 2 * 2 ^ e := by
  rw [zpow_add_one₀ two_ne_zero, mul_comm]

/-- One bit more is one less of the exponent. -/
theorem binary_carry (significand : ℕ) (exponent : ℤ) :
    binary significand (exponent + 1) = binary (2 * significand) exponent := by
  rw [binary, binary, twoPower_succ, Nat.cast_mul, Nat.cast_two]
  ring

theorem scaled_pos {num den : ℕ} (power : ℤ) (hden : 0 < den) : 0 < (scaled num den power).2 := by
  rw [scaled]
  split
  · exact hden
  · exact Nat.shiftLeft_eq den _ ▸ Nat.mul_pos hden (Nat.two_pow_pos _)

theorem scaled_value (num den : ℕ) (power : ℤ) :
    ((scaled num den power).1 : ℚ) / (scaled num den power).2 = num / den * 2 ^ power := by
  rw [scaled]
  split
  · next h =>
    have hpower : (2 : ℚ) ^ power = 2 ^ power.toNat := by rw [← zpow_natCast, Int.toNat_of_nonneg h]
    simp only [Nat.shiftLeft_eq, Nat.cast_mul, Nat.cast_pow, Nat.cast_ofNat]
    rw [hpower, mul_div_right_comm]
  · next h =>
    have hpower : (2 : ℚ) ^ power = (2 ^ (-power).toNat)⁻¹ := by
      rw [← zpow_natCast, Int.toNat_of_nonneg (by omega), zpow_neg, inv_inv]
    simp only [Nat.shiftLeft_eq, Nat.cast_mul, Nat.cast_pow, Nat.cast_ofNat]
    rw [hpower, ← div_eq_mul_inv, div_div]

/-- A natural number lies between powers of two. -/
theorem log2_spec {n : ℕ} (h : 0 < n) : (2 : ℚ) ^ (n.log2 : ℤ) ≤ n ∧ (n : ℚ) < 2 ^ ((n.log2 : ℤ) + 1) := by
  have hlower : 2 ^ n.log2 ≤ n := Nat.log2_self_le (by omega)
  have hupper : n < 2 ^ (n.log2 + 1) := Nat.lt_log2_self
  constructor
  · rw [zpow_natCast]
    exact_mod_cast hlower
  · rw [show (n.log2 : ℤ) + 1 = ((n.log2 + 1 : ℕ) : ℤ) by omega, zpow_natCast]
    exact_mod_cast hupper

/-- The difference of the logarithms is at most one off. -/
theorem log2_sub_spec {num den : ℕ} (hnum : 0 < num) (hden : 0 < den) :
    (2 : ℚ) ^ ((num.log2 : ℤ) - den.log2 - 1) ≤ num / den ∧
      (num / den : ℚ) < 2 ^ ((num.log2 : ℤ) - den.log2 + 1) := by
  obtain ⟨hnumLower, hnumUpper⟩ := log2_spec hnum
  obtain ⟨hdenLower, hdenUpper⟩ := log2_spec hden
  have hdenPos : (0 : ℚ) < den := Nat.cast_pos.mpr hden
  constructor
  · rw [le_div_iff₀ hdenPos]
    calc (2 : ℚ) ^ ((num.log2 : ℤ) - den.log2 - 1) * den
        ≤ 2 ^ ((num.log2 : ℤ) - den.log2 - 1) * 2 ^ ((den.log2 : ℤ) + 1) := by gcongr
      _ = 2 ^ (num.log2 : ℤ) := by rw [← zpow_add₀ two_ne_zero]; congr 1; omega
      _ ≤ num := hnumLower
  · rw [div_lt_iff₀ hdenPos]
    calc (num : ℚ) < 2 ^ ((num.log2 : ℤ) + 1) := hnumUpper
      _ = 2 ^ ((num.log2 : ℤ) - den.log2 + 1) * 2 ^ (den.log2 : ℤ) := by
        rw [← zpow_add₀ two_ne_zero]; congr 1; omega
      _ ≤ 2 ^ ((num.log2 : ℤ) - den.log2 + 1) * den := by gcongr

/-- How the guess is corrected. -/
theorem floorLog2_eq {num den : ℕ} (hden : 0 < den) {guess : ℤ} (hguess : guess = (num.log2 : ℤ) - den.log2) :
    floorLog2 num den = if (num / den : ℚ) < 2 ^ guess then guess - 1 else guess := by
  have hsplit : floorLog2 num den =
      if (scaled num den (-guess)).1 < (scaled num den (-guess)).2 then guess - 1 else guess := by
    rw [hguess]
    rfl
  have hpos : (0 : ℚ) < (scaled num den (-guess)).2 := Nat.cast_pos.mpr (scaled_pos _ hden)
  have hless : (scaled num den (-guess)).1 < (scaled num den (-guess)).2 ↔ (num / den : ℚ) < 2 ^ guess := by
    rw [← Nat.cast_lt (α := ℚ), ← div_lt_one hpos, scaled_value, zpow_neg, ← div_eq_mul_inv,
      div_lt_one (twoPower_pos guess)]
  rw [hsplit]
  simp only [hless]

/-- **The power of two below a fraction** is at most the fraction, and the next one is more. -/
theorem floorLog2_spec {num den : ℕ} (hnum : 0 < num) (hden : 0 < den) :
    (2 : ℚ) ^ floorLog2 num den ≤ num / den ∧ (num / den : ℚ) < 2 ^ (floorLog2 num den + 1) := by
  obtain ⟨hlower, hupper⟩ := log2_sub_spec hnum hden
  rw [floorLog2_eq hden rfl]
  split
  · next hbelow =>
    rw [sub_add_cancel]
    exact ⟨hlower, hbelow⟩
  · next habove => exact ⟨not_lt.mp habove, hupper⟩

/-- **The nearest integer** is at most one half away. -/
theorem abs_roundToEven_sub_le {num den : ℕ} (hden : 0 < den) :
    |(roundToEven num den : ℚ) - num / den| ≤ 1 / 2 := by
  have hdenPos : (0 : ℚ) < den := Nat.cast_pos.mpr hden
  have hless : num % den < den := Nat.mod_lt _ hden
  have hparts : ((den * (num / den) + num % den : ℕ) : ℚ) = num := congrArg Nat.cast (Nat.div_add_mod num den)
  have hvalue : (num : ℚ) / den = (num / den : ℕ) + (num % den : ℕ) / den := by
    rw [← hparts]
    push_cast
    field_simp
  have hrest : 2 * ((num % den : ℕ) / den : ℚ) * den = 2 * (num % den : ℕ) := by field_simp
  rw [hvalue, roundToEven, abs_le]
  split
  · next h =>
    have hhalf : (den : ℚ) ≤ 2 * (num % den : ℕ) := by exact_mod_cast (by omega : den ≤ 2 * (num % den))
    have hbelow : ((num % den : ℕ) : ℚ) / den < 1 := (div_lt_one hdenPos).mpr (by exact_mod_cast hless)
    have habove : 1 / 2 ≤ ((num % den : ℕ) : ℚ) / den := by
      rw [le_div_iff₀ hdenPos]
      linarith
    push_cast
    constructor <;> linarith
  · next h =>
    have hhalf : 2 * ((num % den : ℕ) : ℚ) ≤ den := by exact_mod_cast (by omega : 2 * (num % den) ≤ den)
    have hbelow : ((num % den : ℕ) : ℚ) / den ≤ 1 / 2 := by
      rw [div_le_iff₀ hdenPos]
      linarith
    have habove : (0 : ℚ) ≤ ((num % den : ℕ) : ℚ) / den := by positivity
    constructor <;> linarith

/-! ### Words -/

namespace Format

variable {f : Format}

/-- A significand with as many bits as it can have, and an exponent in range. -/
structure Fits (f : Format) (significand : ℕ) (exponent : ℤ) : Prop where
  /-- the significand has at most one bit more than the fraction field -/
  lt : significand < 2 * twoTo f.fractionBits
  /-- it has them all, unless the exponent cannot be less -/
  full : exponent ≠ f.minExponent → twoTo f.fractionBits ≤ significand
  /-- the exponent is not too small -/
  least : f.minExponent ≤ exponent
  /-- and not too large -/
  most : exponent + 2 ≤ f.minExponent + f.topExponent

/-- The word without its sign. -/
def magnitude (f : Format) (significand : ℕ) (exponent : ℤ) : ℕ :=
  (exponent - f.minExponent).toNat * twoTo f.fractionBits + significand

/-- The word of a number. -/
def word (f : Format) (negative : Bool) (significand : ℕ) (exponent : ℤ) : ℕ :=
  (if negative then f.signBit else 0) + f.magnitude significand exponent

theorem topExponent_succ (f : Format) : f.topExponent + 1 = twoTo f.exponentBits := by
  have hpos := twoTo_pos f.exponentBits
  rw [topExponent]
  omega

theorem signBit_eq (f : Format) : f.signBit = twoTo f.exponentBits * twoTo f.fractionBits := by
  have hpow : twoTo (f.fractionBits + f.exponentBits) = twoTo f.fractionBits * twoTo f.exponentBits :=
    Nat.pow_add 2 _ _
  rw [signBit, hpow, Nat.mul_comm]

theorem infinityBits_eq (f : Format) : f.infinityBits = f.topExponent * twoTo f.fractionBits :=
  Nat.shiftLeft_eq _ _

/-- **What the fields of a word say.** -/
theorem decode_fields {field fraction : ℕ} (hfield : field < twoTo f.exponentBits)
    (hfraction : fraction < twoTo f.fractionBits) (negative : Bool) :
    f.decode ((if negative then f.signBit else 0) + (field * twoTo f.fractionBits + fraction)) =
      if field = f.topExponent then if fraction = 0 then .infinite negative else .nan
      else if field = 0 then .finite negative fraction f.minExponent
      else .finite negative (twoTo f.fractionBits + fraction) (f.minExponent + field - 1) := by
  obtain ⟨unit, hunit⟩ : ∃ unit, unit = twoTo f.fractionBits := ⟨_, rfl⟩
  obtain ⟨bits, hbits⟩ : ∃ bits, bits = (if negative then f.signBit else 0) + (field * unit + fraction) := ⟨_, rfl⟩
  have hsign := f.signBit_eq
  rw [← hunit] at hfraction hsign ⊢
  have hless : field * unit + fraction < f.signBit := by
    have hnext : (field + 1) * unit ≤ twoTo f.exponentBits * unit := Nat.mul_le_mul_right _ hfield
    rw [Nat.add_mul] at hnext
    omega
  have hnegative : (bits / f.signBit % 2 == 1) = negative := by
    rw [hbits]
    cases negative
    · simp [Nat.div_eq_of_lt hless]
    · simp [Nat.add_div_left _ (Nat.zero_lt_of_lt hless), Nat.div_eq_of_lt hless]
  -- the sign is a multiple of what is taken
  have hlow : bits = (field + (if negative then twoTo f.exponentBits else 0)) * unit + fraction := by
    rw [hbits]
    cases negative
    · simp
    · rw [if_pos rfl, if_pos rfl, Nat.add_mul, ← hsign]
      omega
  have hquotient : bits >>> f.fractionBits % twoTo f.exponentBits = field := by
    have hshift : bits >>> f.fractionBits = bits / unit := hunit ▸ Nat.shiftRight_eq_div_pow _ _
    rw [hshift, hlow, Nat.mul_comm, Nat.mul_add_div (Nat.zero_lt_of_lt hfraction), Nat.div_eq_of_lt hfraction]
    cases negative
    · simpa using Nat.mod_eq_of_lt hfield
    · simpa using Nat.mod_eq_of_lt hfield
  have hrest : bits % unit = fraction := by
    rw [hlow, Nat.mul_comm, Nat.mul_add_mod, Nat.mod_eq_of_lt hfraction]
  rw [← hbits, decode]
  simp only [hnegative, hquotient, ← hunit, hrest]

/-- Every word has such fields. -/
theorem exists_fields {bits : ℕ} (h : bits < 2 * f.signBit) :
    ∃ (negative : Bool) (field fraction : ℕ), field < twoTo f.exponentBits ∧ fraction < twoTo f.fractionBits ∧
      bits = (if negative then f.signBit else 0) + (field * twoTo f.fractionBits + fraction) := by
  have hsign := f.signBit_eq
  have hrest : ∀ rest < f.signBit, ∃ field fraction : ℕ, field < twoTo f.exponentBits ∧
      fraction < twoTo f.fractionBits ∧ rest = field * twoTo f.fractionBits + fraction := by
    intro rest hless
    refine ⟨rest / twoTo f.fractionBits, rest % twoTo f.fractionBits, ?_, Nat.mod_lt _ (twoTo_pos _), ?_⟩
    · rwa [Nat.div_lt_iff_lt_mul (twoTo_pos _), ← hsign]
    · rw [Nat.mul_comm, Nat.div_add_mod]
  rcases Nat.lt_or_ge bits f.signBit with hsmall | hlarge
  · obtain ⟨field, fraction, hfield, hfraction, heq⟩ := hrest bits hsmall
    exact ⟨false, field, fraction, hfield, hfraction, by simpa using heq⟩
  · obtain ⟨field, fraction, hfield, hfraction, heq⟩ := hrest (bits - f.signBit) (by omega)
    exact ⟨true, field, fraction, hfield, hfraction, by rw [if_pos rfl, ← heq]; omega⟩

theorem Fits.magnitude_lt {significand : ℕ} {exponent : ℤ} (h : f.Fits significand exponent) :
    f.magnitude significand exponent < f.infinityBits := by
  obtain ⟨steps, hsteps⟩ : ∃ steps, steps = (exponent - f.minExponent).toNat := ⟨_, rfl⟩
  have hmost : steps + 2 ≤ f.topExponent := by
    have hm := h.most
    have hl := h.least
    omega
  have hlt := h.lt
  rw [magnitude, infinityBits_eq, ← hsteps]
  calc steps * twoTo f.fractionBits + significand < (steps + 2) * twoTo f.fractionBits := by
        rw [Nat.add_mul]
        omega
    _ ≤ f.topExponent * twoTo f.fractionBits := Nat.mul_le_mul_right _ hmost

/-- **A word stands for its number.** -/
theorem decode_word {significand : ℕ} {exponent : ℤ} (h : f.Fits significand exponent) (negative : Bool) :
    f.decode (f.word negative significand exponent) = .finite negative significand exponent := by
  have htop := f.topExponent_succ
  have hleast := h.least
  have hmost := h.most
  have hlt := h.lt
  rw [word, magnitude]
  rcases Nat.lt_or_ge significand (twoTo f.fractionBits) with hsmall | hlarge
  · -- a significand that is not full has the least exponent
    have hexponent : exponent = f.minExponent := by
      by_contra hne
      have hfull := h.full hne
      omega
    rw [decode_fields (by omega) hsmall, if_neg (by omega), if_pos (by omega), hexponent]
  · -- the first bit of a full significand is counted with the exponent
    obtain ⟨fraction, rfl⟩ := Nat.exists_eq_add_of_le hlarge
    have hcarry : (exponent - f.minExponent).toNat * twoTo f.fractionBits + (twoTo f.fractionBits + fraction) =
        ((exponent - f.minExponent).toNat + 1) * twoTo f.fractionBits + fraction := by
      rw [Nat.add_mul]
      omega
    rw [hcarry, decode_fields (by omega) (by omega), if_neg (by omega), if_neg (by omega)]
    congr 1
    omega

/-- **Finite numbers** have such words. -/
theorem fits_of_decode {bits : ℕ} (hbits : bits < 2 * f.signBit) (hexponents : 2 ≤ f.topExponent) {negative : Bool}
    {significand : ℕ} {exponent : ℤ} (h : f.decode bits = .finite negative significand exponent) :
    f.Fits significand exponent ∧ bits = f.word negative significand exponent := by
  have htop := f.topExponent_succ
  obtain ⟨sign, field, fraction, hfield, hfraction, rfl⟩ := exists_fields hbits
  rw [decode_fields hfield hfraction] at h
  split at h
  · split at h <;> cases h
  · split at h
    · next hzero =>
      obtain ⟨rfl, rfl, rfl⟩ := Parts.finite.inj h
      refine ⟨⟨by omega, fun hne => absurd rfl hne, le_refl _, by omega⟩, ?_⟩
      rw [word, magnitude, hzero, Int.sub_self, Int.toNat_zero]
    · next hpos =>
      obtain ⟨rfl, rfl, rfl⟩ := Parts.finite.inj h
      refine ⟨⟨by omega, fun _ => by omega, by omega, by omega⟩, ?_⟩
      have hsteps : (f.minExponent + (field : ℤ) - 1 - f.minExponent).toNat + 1 = field := by omega
      rw [word, magnitude, ← Nat.add_assoc (_ * _), ← Nat.add_one_mul, hsteps]

/-! ### Words of fractions -/

variable {num den : ℕ} {negative : Bool} {significand : ℕ} {exponent : ℤ}

/-- The exponent that the last bit of a fraction has. -/
def lastExponent (f : Format) (num den : ℕ) : ℤ := max f.minExponent (floorLog2 num den - f.fractionBits)

/-- **The word of a fraction** is made of its last exponent and a multiple of its last bit that is at most one half of
it away. -/
theorem encode_spec (hnum : 0 < num) (hden : 0 < den) {last : ℤ} (hlast : f.lastExponent num den = last)
    (negative : Bool) :
    ∃ nearest : ℕ, |(nearest : ℚ) - num / den / 2 ^ last| ≤ 1 / 2 ∧
      f.encode negative num den = (if negative then f.signBit else 0) +
        min ((last - f.minExponent).toNat * twoTo f.fractionBits + nearest) f.infinityBits := by
  refine ⟨roundToEven (scaled num den (-last)).1 (scaled num den (-last)).2, ?_, ?_⟩
  · have hvalue := scaled_value num den (-last)
    rw [zpow_neg, ← div_eq_mul_inv] at hvalue
    rw [← hvalue]
    exact abs_roundToEven_sub_le (scaled_pos _ hden)
  · rw [encode, if_neg (by omega)]
    simp only [Nat.shiftLeft_eq]
    rw [← hlast]
    rfl

/-- A multiple of the last bit that makes the magnitude of a number makes its word. -/
theorem word_of_magnitude (hfits : f.Fits significand exponent) {bits : ℕ}
    (h : bits = f.magnitude significand exponent) :
    (if negative then f.signBit else 0) + min bits f.infinityBits = f.word negative significand exponent := by
  rw [h, Nat.min_eq_left (Nat.le_of_lt hfits.magnitude_lt), word]

/-- A magnitude with one bit too many is that of the next exponent. -/
theorem magnitude_carry {last : ℤ} (h : f.minExponent ≤ last) :
    (last - f.minExponent).toNat * twoTo f.fractionBits + 2 * twoTo f.fractionBits =
      f.magnitude (twoTo f.fractionBits) (last + 1) := by
  have hsteps : (last + 1 - f.minExponent).toNat = (last - f.minExponent).toNat + 1 := by omega
  rw [magnitude, hsteps, Nat.add_one_mul (last - f.minExponent).toNat]
  omega

/-- Of two integers next to a number, one within a half and one nearer than that, both are the same. -/
theorem eq_of_abs_sub_lt {m n : ℕ} {x : ℚ} (hm : |(m : ℚ) - x| ≤ 1 / 2) (hn : |x - n| < 1 / 2) : m = n := by
  have hless : |(m : ℚ) - n| < 1 := by
    calc |(m : ℚ) - n| ≤ |(m : ℚ) - x| + |x - n| := abs_sub_le _ _ _
      _ < 1 := by linarith
  have hint : |(m : ℤ) - n| < 1 := by exact_mod_cast hless
  have hzero := Int.abs_lt_one_iff.mp hint
  omega

/-- A fraction that is little more than a number has no bit above those that the number can have. -/
theorem Fits.log_lt (hfits : f.Fits significand exponent) {log : ℤ} {v : ℚ} (hlog : 2 ^ log ≤ v)
    (hupper : v < (significand + 1 / 4) * 2 ^ exponent) : log < f.fractionBits + 1 + exponent := by
  refine (zpow_lt_zpow_iff_right₀ (one_lt_two (α := ℚ))).mp ?_
  have hfew : (significand : ℚ) + 1 ≤ 2 * twoTo f.fractionBits := by exact_mod_cast hfits.lt
  calc (2 : ℚ) ^ log ≤ v := hlog
    _ < (significand + 1 / 4) * 2 ^ exponent := hupper
    _ ≤ 2 * twoTo f.fractionBits * 2 ^ exponent := by gcongr; linarith
    _ = 2 ^ ((f.fractionBits : ℤ) + 1 + exponent) := by
      rw [cast_twoTo, zpow_add₀ two_ne_zero, twoPower_succ]

/-- A fraction that is little less than a full number has its first bit, or the one below. -/
theorem le_log_succ (hfull : twoTo f.fractionBits ≤ significand) {log : ℤ} {v : ℚ} (hlog : v < 2 ^ (log + 1))
    (hlower : ((significand : ℚ) - 1 / 4) * 2 ^ exponent < v) : f.fractionBits + exponent ≤ log + 1 := by
  have hless : (f.fractionBits : ℤ) + exponent - 1 < log + 1 := by
    refine (zpow_lt_zpow_iff_right₀ (one_lt_two (α := ℚ))).mp ?_
    have hmore : (twoTo f.fractionBits : ℚ) ≤ significand := by exact_mod_cast hfull
    have hmany : (1 : ℚ) ≤ twoTo f.fractionBits := by exact_mod_cast twoTo_pos f.fractionBits
    have hpos := twoPower_pos exponent
    have hhalf : (2 : ℚ) * 2 ^ ((f.fractionBits : ℤ) + exponent - 1) = twoTo f.fractionBits * 2 ^ exponent := by
      rw [← twoPower_succ, cast_twoTo, ← zpow_add₀ two_ne_zero]
      congr 1
      omega
    have hquarter : (1 / 2 : ℚ) * (twoTo f.fractionBits * 2 ^ exponent) ≤ (significand - 1 / 4) * 2 ^ exponent := by
      rw [← mul_assoc]
      gcongr
      linarith
    linarith
  omega

/-- A full number that has such a fraction below its first bit is a power of two. -/
theorem eq_twoTo_of_log (hfull : twoTo f.fractionBits ≤ significand) {v : ℚ}
    (hlog : v < 2 ^ ((f.fractionBits : ℤ) + exponent)) (hlower : ((significand : ℚ) - 1 / 4) * 2 ^ exponent < v) :
    significand = twoTo f.fractionBits := by
  have hlt : ((significand : ℚ) - 1 / 4) * 2 ^ exponent < twoTo f.fractionBits * 2 ^ exponent := by
    refine hlower.trans (hlog.trans_eq ?_)
    rw [zpow_add₀ two_ne_zero, cast_twoTo]
  have hcast : (significand : ℚ) < twoTo f.fractionBits + 1 := by
    have hcancel := lt_of_mul_lt_mul_right hlt (twoPower_pos exponent).le
    linarith
  exact le_antisymm (Nat.le_of_lt_succ (by exact_mod_cast hcast)) hfull

/-- The last exponent of a fraction near a number is that of the number, or, just below a power of two, one less. -/
theorem lastExponent_near (hfits : f.Fits significand exponent) (hden : 0 < den) (hnum : 0 < num)
    (hlower : ((significand : ℚ) - 1 / 4) * 2 ^ exponent < num / den)
    (hupper : (num / den : ℚ) < (significand + 1 / 4) * 2 ^ exponent) :
    f.lastExponent num den = exponent ∨
      (f.lastExponent num den = exponent - 1 ∧ significand = twoTo f.fractionBits ∧ f.minExponent < exponent) := by
  obtain ⟨hlogLower, hlogUpper⟩ := floorLog2_spec hnum hden
  have hlast : f.lastExponent num den = max f.minExponent (floorLog2 num den - f.fractionBits) := rfl
  have hmost := hfits.log_lt hlogLower hupper
  rcases hfits.least.eq_or_lt with heq | hless
  · exact .inl (by omega)
  · have hfull := hfits.full hless.ne'
    have hleast := le_log_succ hfull hlogUpper hlower
    rcases (by omega : floorLog2 num den = f.fractionBits + exponent ∨
      floorLog2 num den + 1 = f.fractionBits + exponent) with hsame | hbelow
    · exact .inl (by omega)
    · rw [hbelow] at hlogUpper
      exact .inr ⟨by omega, eq_twoTo_of_log hfull hlogUpper hlower, hless⟩

/-- **Near enough.** A fraction that is nearer to a number than a quarter of its last bit has the word of the
number. -/
theorem encode_eq_word (hfits : f.Fits significand exponent) (hpos : 0 < significand) (hden : 0 < den)
    (hnear : |(num / den : ℚ) - binary significand exponent| < 2 ^ exponent / 4) :
    f.encode negative num den = f.word negative significand exponent := by
  have hbit := twoPower_pos exponent
  have hone : (1 : ℚ) ≤ significand := by exact_mod_cast hpos
  obtain ⟨hlow, hhigh⟩ := abs_lt.mp hnear
  rw [binary] at hlow hhigh
  have hlower : ((significand : ℚ) - 1 / 4) * 2 ^ exponent < num / den := by linarith
  have hupper : (num / den : ℚ) < (significand + 1 / 4) * 2 ^ exponent := by linarith
  have hless : (0 : ℚ) < ((significand : ℚ) - 1 / 4) * 2 ^ exponent := mul_pos (by linarith) hbit
  have hnum : 0 < num := num_pos_of_pos (hless.trans hlower)
  have hquotient : |(num / den : ℚ) / 2 ^ exponent - significand| < 1 / 4 := by
    rw [abs_lt]
    constructor
    · rw [lt_sub_iff_add_lt, lt_div_iff₀ hbit]
      linarith
    · rw [sub_lt_iff_lt_add, div_lt_iff₀ hbit]
      linarith
  rcases lastExponent_near hfits hden hnum hlower hupper with hlast | ⟨hlast, hunit, hleast⟩
  · obtain ⟨nearest, hnearest, hencode⟩ := encode_spec hnum hden hlast negative
    have hsame : nearest = significand := eq_of_abs_sub_lt hnearest (hquotient.trans (by norm_num))
    rw [hencode, word_of_magnitude hfits]
    rw [hsame, magnitude]
  · -- in halves of the last bit the number is the first with one bit more
    obtain ⟨nearest, hnearest, hencode⟩ := encode_spec hnum hden hlast negative
    have hdouble : |(num / den : ℚ) / 2 ^ (exponent - 1) - (2 * significand : ℕ)| < 1 / 2 := by
      have hhalf : (num / den : ℚ) / 2 ^ (exponent - 1) = 2 * (num / den / 2 ^ exponent) := by
        rw [zpow_sub_one₀ two_ne_zero]
        field_simp
      rw [hhalf]
      push_cast
      rw [← mul_sub, abs_mul, abs_two]
      linarith
    have hsame : nearest = 2 * significand := eq_of_abs_sub_lt hnearest hdouble
    have hcarry := @magnitude_carry f (exponent - 1) (by omega)
    rw [sub_add_cancel] at hcarry
    rw [hencode, word_of_magnitude hfits]
    rw [hsame, hunit, hcarry]

/-- **In range** the last bit of a fraction has an exponent that a full significand can have, and the fraction takes
all the bits above it. -/
theorem exists_lastExponent (hden : 0 < den)
    (hlow : (2 : ℚ) ^ (f.minExponent + f.fractionBits) ≤ num / den)
    (hhigh : (num / den : ℚ) < 2 ^ (f.minExponent + f.topExponent + f.fractionBits - 2)) :
    ∃ last, f.lastExponent num den = last ∧ f.minExponent ≤ last ∧ last + 3 ≤ f.minExponent + f.topExponent ∧
      (twoTo f.fractionBits : ℚ) ≤ num / den / 2 ^ last ∧ (num / den / 2 ^ last : ℚ) < 2 * twoTo f.fractionBits := by
  have hnum : 0 < num := num_pos_of_pos ((twoPower_pos _).trans_le hlow)
  obtain ⟨hlogLower, hlogUpper⟩ := floorLog2_spec hnum hden
  obtain ⟨last, hlast⟩ : ∃ last : ℤ, floorLog2 num den = last + f.fractionBits :=
    ⟨floorLog2 num den - f.fractionBits, by omega⟩
  rw [hlast] at hlogLower hlogUpper
  have hunit := cast_twoTo f.fractionBits
  have hbit := twoPower_pos last
  have hleast : f.minExponent ≤ last := by
    have hless := (zpow_lt_zpow_iff_right₀ (one_lt_two (α := ℚ))).mp (hlow.trans_lt hlogUpper)
    omega
  have hmost : last + 3 ≤ f.minExponent + f.topExponent := by
    have hless := (zpow_lt_zpow_iff_right₀ (one_lt_two (α := ℚ))).mp (hlogLower.trans_lt hhigh)
    omega
  refine ⟨last, ?_, hleast, hmost, ?_, ?_⟩
  · rw [lastExponent, hlast]
    omega
  · rw [le_div_iff₀ hbit, hunit, ← zpow_add₀ two_ne_zero]
    exact (congrArg _ (add_comm _ _)).trans_le hlogLower
  · rw [div_lt_iff₀ hbit, hunit, ← twoPower_succ, ← zpow_add₀ two_ne_zero]
    exact hlogUpper.trans_eq (congrArg _ (by ring))

/-- An integer next to a number that takes all the bits takes them all, and at most one more. -/
theorem full_of_nearest {nearest unit : ℕ} {x : ℚ} (hnearest : |(nearest : ℚ) - x| ≤ 1 / 2) (hmin : unit ≤ x)
    (hmax : x < 2 * unit) : unit ≤ nearest ∧ nearest ≤ 2 * unit := by
  obtain ⟨hbelow, habove⟩ := abs_le.mp hnearest
  constructor
  · have hcast : (unit : ℚ) < nearest + 1 := by linarith
    exact Nat.le_of_lt_succ (by exact_mod_cast hcast)
  · have hcast : (nearest : ℚ) < 2 * unit + 1 := by linarith
    exact Nat.le_of_lt_succ (by exact_mod_cast hcast)

/-- Half of a last bit is little in comparison with a number that takes all the bits. -/
theorem abs_binary_sub_mul_le {nearest unit : ℕ} {last : ℤ} {v : ℚ} (hnearest : |(nearest : ℚ) - v / 2 ^ last| ≤ 1 / 2)
    (hmin : unit ≤ v / 2 ^ last) : |binary nearest last - v| * (unit * 2) ≤ v := by
  have hbit := twoPower_pos last
  have hscale : binary nearest last - v = ((nearest : ℚ) - v / 2 ^ last) * 2 ^ last := by
    rw [binary, sub_mul, div_mul_cancel₀ _ hbit.ne']
  rw [hscale, abs_mul, abs_of_pos hbit]
  calc |(nearest : ℚ) - v / 2 ^ last| * 2 ^ last * (unit * 2) ≤ 1 / 2 * 2 ^ last * (unit * 2) := by gcongr
    _ = unit * 2 ^ last := by ring
    _ ≤ v := (le_div_iff₀ hbit).mp hmin

/-- **In range.** Any fraction in the range of full significands has the word of a number that is at most half of a
last bit away. -/
theorem exists_encode_eq_word (hden : 0 < den) (negative : Bool)
    (hlow : (2 : ℚ) ^ (f.minExponent + f.fractionBits) ≤ num / den)
    (hhigh : (num / den : ℚ) < 2 ^ (f.minExponent + f.topExponent + f.fractionBits - 2)) :
    ∃ significand exponent, f.Fits significand exponent ∧ twoTo f.fractionBits ≤ significand ∧
      f.encode negative num den = f.word negative significand exponent ∧
      |binary significand exponent - num / den| * twoTo (f.fractionBits + 1) ≤ num / den := by
  have hnum : 0 < num := num_pos_of_pos ((twoPower_pos _).trans_le hlow)
  obtain ⟨last, hlast, hleast, hmost, hmin, hmax⟩ := exists_lastExponent hden hlow hhigh
  obtain ⟨nearest, hnearest, hencode⟩ := encode_spec hnum hden hlast negative
  obtain ⟨hfull, hbits⟩ := full_of_nearest hnearest hmin hmax
  have herror := abs_binary_sub_mul_le hnearest hmin
  rw [twoTo_succ, Nat.cast_mul, Nat.cast_two]
  rcases hbits.lt_or_eq with hlt | heq
  · have hfits : f.Fits nearest last := ⟨hlt, fun _ => hfull, hleast, by omega⟩
    exact ⟨nearest, last, hfits, hfull, hencode.trans (word_of_magnitude hfits rfl), herror⟩
  · -- one bit too many: half of it, with the next exponent
    have hfits : f.Fits (twoTo f.fractionBits) (last + 1) :=
      ⟨by have hpos := twoTo_pos f.fractionBits; omega, fun _ => le_refl _, by omega, by omega⟩
    refine ⟨twoTo f.fractionBits, last + 1, hfits, le_refl _, ?_, ?_⟩
    · rw [hencode, word_of_magnitude hfits]
      rw [heq, magnitude_carry hleast]
    · rwa [binary_carry, ← heq]

end Format

end Orchestration.Number
