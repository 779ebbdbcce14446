import Orchestration.Number.Layout
import Orchestration.Proofs.BinaryWords

/-!
# Products and quotients in double precision

Core's numbers of 64 bits are unpacked, computed with and packed again. Of numbers with full significands the
product and the quotient have full significands too, as far as they stay in range, and are at most one last bit off.

* `Denotes` — a number of core's is `± significand · 2 ^ exponent`.
* `toNat_pack`, `unpack_of_word` — core packs and unpacks such numbers as words of the format.
* `exists_roundWithAccuracy` — core's rounding, with how far it is off.
* `Denotes.mul`, `Denotes.div`, `Denotes.neg` — what comes of such numbers.
-/

namespace Orchestration.Number

open Float.Model (UnpackedFloat)
open Float.Model.UnpackedFloat (Sign Accuracy ExtendedMantissa packComponents unpackSign unpackExponent unpackMantissa
  unpackMantissa_packComponents unpackExponent_packComponents shiftToTargetExponent roundWithAccuracy)

/-! ### Packing -/

/-- The sign of core's. -/
def signOf (negative : Bool) : Sign := if negative then .negative else .positive

theorem toNat_append {m n : ℕ} (x : BitVec m) (y : BitVec n) : (x ++ y).toNat = x.toNat * 2 ^ n + y.toNat := by
  rw [BitVec.toNat_append, ← Nat.shiftLeft_add_eq_or_of_lt y.isLt, Nat.shiftLeft_eq]

/-- The numbers with full significands. -/
theorem double_fits_iff {significand : ℕ} {exponent : ℤ} (hfull : 2 ^ 52 ≤ significand) :
    Format.double.Fits significand exponent ↔ significand < 2 ^ 53 ∧ -1074 ≤ exponent ∧ exponent ≤ 971 := by
  have hunit : twoTo Format.double.fractionBits = 2 ^ 52 := rfl
  have hmin : Format.double.minExponent = -1074 := rfl
  have htop : Format.double.topExponent = 2047 := rfl
  constructor
  · intro h
    have hlt := h.lt
    have hleast := h.least
    have hmost := h.most
    rw [hunit] at hlt
    rw [hmin] at hleast hmost
    rw [htop] at hmost
    omega
  · rintro ⟨hlt, hleast, hmost⟩
    refine ⟨?_, fun _ => hfull, ?_, ?_⟩
    · rw [hunit]
      omega
    · rwa [hmin]
    · rw [hmin, htop]
      omega

section Packing

variable {significand : ℕ} {exponent : ℤ} {negative : Bool}

/-- **A full significand is packed** without its first bit, next to the exponent. -/
theorem pack_finite (hfull : 2 ^ 52 ≤ significand) (hfits : Format.double.Fits significand exponent) (s : Sign)
    (hpos : 0 < significand) :
    UnpackedFloat.pack .binary64 (.finite s significand exponent hpos) =
      packComponents .binary64 s (BitVec.ofNat 11 (exponent + 1075).toNat) (BitVec.ofNat 52 significand) := by
  obtain ⟨hlt, hleast, hmost⟩ := (double_fits_iff hfull).mp hfits
  have hbias : (exponent + ((1023 : ℕ) : ℤ) + ((52 : ℕ) : ℤ)).toNat = (exponent + 1075).toNat := by
    congr 1
    omega
  have hlog : significand.log2 = 52 := (Nat.log2_eq_iff (by omega)).mpr ⟨hfull, hlt⟩
  have hpack : UnpackedFloat.pack .binary64 (.finite s significand exponent hpos) =
      if 2 ^ 11 ≤ (exponent + ((1023 : ℕ) : ℤ) + ((52 : ℕ) : ℤ)).toNat + 1 then UnpackedFloat.packedInfinity .binary64 s
      else if significand.log2 + 1 = 53 then
        packComponents .binary64 s (BitVec.ofNat 11 (exponent + ((1023 : ℕ) : ℤ) + ((52 : ℕ) : ℤ)).toNat)
          (BitVec.ofNat 52 significand)
      else packComponents .binary64 s 0#11 (BitVec.ofNat 52 significand) := rfl
  rw [hpack, hbias, if_neg (by omega), if_pos (by omega)]

theorem toNat_pack (hfull : 2 ^ 52 ≤ significand) (hfits : Format.double.Fits significand exponent)
    (negative : Bool) (hpos : 0 < significand) :
    (UnpackedFloat.pack .binary64 (.finite (signOf negative) significand exponent hpos)).toNat =
      Format.double.word negative significand exponent := by
  obtain ⟨hlt, hleast, hmost⟩ := (double_fits_iff hfull).mp hfits
  have hsign : (signOf negative).toBitVec.toNat * 2 ^ 11 * 2 ^ 52 = if negative then Format.double.signBit else 0 := by
    cases negative <;> rfl
  have hword : Format.double.word negative significand exponent =
      (if negative then Format.double.signBit else 0) + ((exponent + 1074).toNat * 2 ^ 52 + significand) := rfl
  have happend : ∀ (s : BitVec 1) (e : BitVec 11) (m : BitVec 52),
      (s ++ e ++ m).toNat = s.toNat * 2 ^ 11 * 2 ^ 52 + (e.toNat * 2 ^ 52 + m.toNat) := by
    intro s e m
    rw [toNat_append, toNat_append, Nat.add_mul, Nat.add_assoc]
  rw [pack_finite hfull hfits, packComponents]
  refine (happend _ _ _).trans ?_
  rw [hsign, hword, BitVec.toNat_ofNat, BitVec.toNat_ofNat]
  omega

/-- The fields of a number that is neither the least nor the greatest exponent's are read off its word. -/
theorem unpack_of_fields {b : BitVec 64} {s : Sign} (hpos : 0 < significand)
    (hsign : Sign.ofBitVec (@unpackSign .binary64 b) = s)
    (hmantissa : (1#1 ++ @unpackMantissa .binary64 b).toNat = significand)
    (hexponent : ((@unpackExponent .binary64 b).toNat : ℤ) - (((1023 : ℕ) : ℤ) + ((52 : ℕ) : ℤ)) = exponent)
    (htop : @unpackExponent .binary64 b ≠ -1#11) (hzero : @unpackExponent .binary64 b ≠ 0#11) :
    UnpackedFloat.unpack .binary64 b = .finite s significand exponent hpos := by
  subst hsign hmantissa hexponent
  exact (if_neg htop).trans (if_neg hzero)

/-- The first digit of a word is the sign of its number. -/
theorem sign_of_word (hfits : Format.double.Fits significand exponent) {b : BitVec 64}
    (h : b.toNat = Format.double.word negative significand exponent) :
    Sign.ofBitVec (@unpackSign .binary64 b) = signOf negative := by
  have hdigit : @unpackSign .binary64 b = BitVec.ofNat 1 (b.toNat >>> 63) := BitVec.eq_of_toNat_eq rfl
  have hbit : b.toNat >>> 63 = if negative then 1 else 0 := by
    have hless : Format.double.magnitude significand exponent < 2 ^ 63 := hfits.magnitude_lt.trans_le (by decide)
    have hweight : Format.double.signBit = 2 ^ 63 := rfl
    rw [h, Nat.shiftRight_eq_div_pow, Format.word, hweight]
    split <;> omega
  rw [hdigit, hbit]
  cases negative <;> rfl

/-- **The word of a number is unpacked** as the number. -/
theorem unpack_of_word (hfull : 2 ^ 52 ≤ significand) (hfits : Format.double.Fits significand exponent)
    (hpos : 0 < significand) {b : BitVec 64} (h : b.toNat = Format.double.word negative significand exponent) :
    UnpackedFloat.unpack .binary64 b = .finite (signOf negative) significand exponent hpos := by
  obtain ⟨hlt, hleast, hmost⟩ := (double_fits_iff hfull).mp hfits
  have hb : b = packComponents .binary64 (signOf negative) (BitVec.ofNat 11 (exponent + 1075).toNat)
      (BitVec.ofNat 52 significand) := by
    rw [← pack_finite hfull hfits (signOf negative) hpos]
    exact BitVec.eq_of_toNat_eq (h.trans (toNat_pack hfull hfits negative hpos).symm)
  have hexponent : @unpackExponent .binary64 b = BitVec.ofNat 11 (exponent + 1075).toNat :=
    hb ▸ unpackExponent_packComponents
  have hmantissa : @unpackMantissa .binary64 b = BitVec.ofNat 52 significand :=
    hb ▸ unpackMantissa_packComponents
  have hfield : (BitVec.ofNat 11 (exponent + 1075).toNat).toNat = (exponent + 1075).toNat := by
    rw [BitVec.toNat_ofNat]
    omega
  have hother : ∀ other : BitVec 11, (exponent + 1075).toNat ≠ other.toNat → @unpackExponent .binary64 b ≠ other := by
    intro other hne he
    rw [hexponent] at he
    exact hne (hfield.symm.trans (congrArg BitVec.toNat he))
  have htop : (-1#11).toNat = 2047 := by decide
  have hzero : (0#11).toNat = 0 := by decide
  refine unpack_of_fields hpos (sign_of_word hfits h) ?_ ?_ (hother _ (by omega)) (hother _ (by omega))
  · rw [hmantissa, toNat_append, BitVec.toNat_ofNat, BitVec.toNat_ofNat]
    omega
  · rw [hexponent, hfield]
    omega

end Packing

/-! ### Rounding -/

theorem mantissa_shiftRight (em : ExtendedMantissa) (n : ℕ) : (em >>> n).mantissa = em.mantissa / 2 ^ n := by
  have hrepeat : em >>> n = n.repeat ExtendedMantissa.shiftRightOne em := rfl
  rw [hrepeat]
  induction n with
  | zero => simp [Nat.repeat]
  | succ n ih =>
    rw [Nat.repeat, ExtendedMantissa.shiftRightOne, ih rfl, Nat.div_div_eq_div_mul, Nat.pow_succ]

/-- Whatever is known of the rest, a significand is rounded to itself or to the next. -/
theorem roundedMantissa_cases (em : ExtendedMantissa) :
    em.roundedMantissa = em.mantissa ∨ em.roundedMantissa = em.mantissa + 1 := by
  obtain ⟨mantissa, round, sticky⟩ := em
  have hparity : mantissa % 2 = 0 ∨ mantissa % 2 = 1 := by omega
  cases round <;> cases sticky <;>
    simp [ExtendedMantissa.roundedMantissa, ExtendedMantissa.accuracy, Accuracy.roundToNearestEven, hparity]

/-- A significand with too many bits is shifted until it is full. -/
theorem shiftToTargetExponent_spec {mantissa shift : ℕ} {exponent : ℤ} (hlow : 2 ^ (52 + shift) ≤ mantissa)
    (hhigh : mantissa < 2 ^ (53 + shift)) (hmin : -1074 ≤ exponent + shift) (accuracy : Accuracy) :
    (shiftToTargetExponent .binary64 mantissa exponent accuracy).1.mantissa = mantissa / 2 ^ shift ∧
      (shiftToTargetExponent .binary64 mantissa exponent accuracy).2 = exponent + shift := by
  have hlog : mantissa.log2 = 52 + shift :=
    (Nat.log2_eq_iff (by have hpos := Nat.two_pow_pos (52 + shift); omega)).mpr
      ⟨hlow, hhigh.trans_eq (by rw [Nat.add_right_comm])⟩
  have htarget : Float.Model.Format.targetExponent .binary64 (Float.Model.totalExponent mantissa exponent) =
      exponent + shift := by
    have hvalue : Float.Model.Format.targetExponent .binary64 (Float.Model.totalExponent mantissa exponent) =
        max ((mantissa.log2 : ℤ) + 1 + exponent - (53 : ℕ)) (-1074) := rfl
    rw [hvalue, hlog]
    omega
  have hamount : (exponent + shift - exponent).toNat = shift := by omega
  obtain ⟨target, hnamed⟩ : ∃ target, target = Float.Model.Format.targetExponent .binary64
      (Float.Model.totalExponent mantissa exponent) := ⟨_, rfl⟩
  have hshifted : shiftToTargetExponent .binary64 mantissa exponent accuracy =
      (ExtendedMantissa.ofMantissaAndAccuracy mantissa accuracy >>> (target - exponent).toNat,
        exponent + (target - exponent).toNat) := by rw [hnamed]; rfl
  have hmantissa : (ExtendedMantissa.ofMantissaAndAccuracy mantissa accuracy).mantissa = mantissa := by
    unfold ExtendedMantissa.ofMantissaAndAccuracy
    split <;> rfl
  rw [hshifted, hnamed, htarget, hamount]
  exact ⟨by rw [mantissa_shiftRight, hmantissa], rfl⟩

/-- Whatever begins with a significand is at most one last bit away from its first bits, rounded either way. -/
theorem abs_binary_sub_le {mantissa shift rounded : ℕ} {exponent : ℤ} (hfull : 2 ^ 52 ≤ mantissa / 2 ^ shift)
    (hrounded : rounded = mantissa / 2 ^ shift ∨ rounded = mantissa / 2 ^ shift + 1) {v : ℚ}
    (hlower : binary mantissa exponent ≤ v) (hupper : v < binary (mantissa + 1) exponent) :
    |binary rounded (exponent + shift) - v| * 2 ^ 52 ≤ v := by
  obtain ⟨quotient, hquotient⟩ : ∃ quotient, quotient = mantissa / 2 ^ shift := ⟨_, rfl⟩
  rw [← hquotient] at hfull hrounded
  have hunit := twoPower_pos (exponent + shift)
  have hscale : (2 : ℚ) ^ (exponent + shift) = 2 ^ exponent * 2 ^ shift := by
    rw [zpow_add₀ two_ne_zero, zpow_natCast]
  have hbelow : (quotient : ℚ) * 2 ^ (exponent + shift) ≤ v := by
    have hle : (quotient : ℚ) * 2 ^ shift ≤ mantissa := by exact_mod_cast hquotient ▸ Nat.div_mul_le_self _ _
    calc (quotient : ℚ) * 2 ^ (exponent + shift) = (quotient * 2 ^ shift) * 2 ^ exponent := by rw [hscale]; ring
      _ ≤ mantissa * 2 ^ exponent := by gcongr
      _ ≤ v := hlower
  have habove : v < ((quotient : ℚ) + 1) * 2 ^ (exponent + shift) := by
    have hle : ((mantissa + 1 : ℕ) : ℚ) ≤ (quotient + 1) * 2 ^ shift := by
      have hless : mantissa < (quotient + 1) * 2 ^ shift := by
        rw [Nat.add_one_mul, hquotient]
        exact Nat.lt_div_mul_add (Nat.two_pow_pos shift)
      exact_mod_cast hless
    calc v < (mantissa + 1 : ℕ) * 2 ^ exponent := hupper
      _ ≤ (quotient + 1) * 2 ^ shift * 2 ^ exponent := by gcongr
      _ = (quotient + 1) * 2 ^ (exponent + shift) := by rw [hscale]; ring
  have hnear : |binary rounded (exponent + shift) - v| ≤ 2 ^ (exponent + shift) := by
    rw [binary, abs_le]
    rcases hrounded with rfl | rfl
    · constructor <;> linarith
    · push_cast
      constructor <;> linarith
  have hmany : (2 : ℚ) ^ 52 ≤ quotient := by exact_mod_cast hfull
  calc |binary rounded (exponent + shift) - v| * 2 ^ 52 ≤ (2 : ℚ) ^ (exponent + shift) * 2 ^ 52 := by gcongr
    _ ≤ (quotient : ℚ) * 2 ^ (exponent + shift) := by rw [mul_comm]; gcongr
    _ ≤ v := hbelow

/-- **Rounding** a significand that has all its bits gives a full one, at most one last bit away from all that begins
with the given one. -/
theorem exists_roundWithAccuracy {mantissa shift : ℕ} {exponent : ℤ} (hlow : 2 ^ (52 + shift) ≤ mantissa)
    (hhigh : mantissa < 2 ^ (53 + shift)) (hmin : -1074 ≤ exponent + shift) (hmax : exponent + shift ≤ 970)
    (s : Sign) (accuracy : Accuracy) :
    ∃ significand last hpos, roundWithAccuracy .binary64 s mantissa exponent accuracy =
        .finite s significand last hpos ∧ 2 ^ 52 ≤ significand ∧ Format.double.Fits significand last ∧
      ∀ v : ℚ, binary mantissa exponent ≤ v → v < binary (mantissa + 1) exponent →
        |binary significand last - v| * 2 ^ 52 ≤ v := by
  obtain ⟨first, hfirst⟩ : ∃ first, first = shiftToTargetExponent .binary64 mantissa exponent accuracy := ⟨_, rfl⟩
  obtain ⟨rounded, hrounded⟩ : ∃ rounded, rounded = first.1.roundedMantissa := ⟨_, rfl⟩
  obtain ⟨second, hsecond⟩ : ∃ second, second = shiftToTargetExponent .binary64 rounded first.2 .exact := ⟨_, rfl⟩
  have hround : ∀ {significand : ℕ} {last : ℤ} (hpos : 0 < significand), second.1.mantissa = significand →
      second.2 = last → roundWithAccuracy .binary64 s mantissa exponent accuracy = .finite s significand last hpos := by
    rintro _ _ hpos rfl rfl
    subst hsecond hrounded hfirst
    exact dif_neg hpos.ne'
  obtain ⟨hmantissa, hexponent⟩ := shiftToTargetExponent_spec hlow hhigh hmin accuracy
  rw [← hfirst] at hmantissa hexponent
  have hfull : 2 ^ 52 ≤ mantissa / 2 ^ shift := by
    rw [Nat.le_div_iff_mul_le (Nat.two_pow_pos shift), ← Nat.pow_add]
    exact hlow
  have hbits : mantissa / 2 ^ shift < 2 ^ 53 := by
    rw [Nat.div_lt_iff_lt_mul (Nat.two_pow_pos shift), ← Nat.pow_add]
    exact hhigh
  have hcases : rounded = mantissa / 2 ^ shift ∨ rounded = mantissa / 2 ^ shift + 1 := by
    rw [hrounded, ← hmantissa]
    exact roundedMantissa_cases _
  rcases (by omega : rounded < 2 ^ 53 ∨ rounded = 2 ^ 53) with hless | hcarry
  · obtain ⟨hsame, hlast⟩ := @shiftToTargetExponent_spec rounded 0 first.2 (by omega) (by omega) (by omega) .exact
    rw [← hsecond, Nat.pow_zero, Nat.div_one] at hsame
    rw [← hsecond, hexponent, Nat.cast_zero, Int.add_zero] at hlast
    exact ⟨rounded, exponent + shift, by omega, hround _ hsame hlast, by omega,
      (double_fits_iff (by omega)).mpr (by omega), fun v => abs_binary_sub_le hfull hcases⟩
  · -- one bit too many: half of it, with the next exponent
    obtain ⟨hsame, hlast⟩ := @shiftToTargetExponent_spec rounded 1 first.2 (by omega) (by omega) (by omega) .exact
    rw [← hsecond, hcarry] at hsame
    rw [← hsecond, hexponent] at hlast
    refine ⟨2 ^ 52, exponent + shift + 1, by omega, hround _ hsame hlast, le_refl _,
      (double_fits_iff (le_refl _)).mpr (by omega), fun v hlower hupper => ?_⟩
    have hvalue : binary (2 ^ 52) (exponent + shift + 1) = binary rounded (exponent + shift) := by
      rw [binary_carry, hcarry, ← Nat.pow_succ']
    rw [hvalue]
    exact abs_binary_sub_le hfull hcases hlower hupper

/-! ### Numbers -/

/-- The number of core's is `± significand · 2 ^ exponent`, with a full significand. -/
structure Denotes (x : Float) (negative : Bool) (significand : ℕ) (exponent : ℤ) : Prop where
  /-- the significand is full -/
  full : 2 ^ 52 ≤ significand
  /-- the exponent is in range -/
  fits : Format.double.Fits significand exponent
  /-- the bits are the word of the number -/
  bits : x.toBits.toNat = Format.double.word negative significand exponent

namespace Denotes

variable {x y : Float} {negative other : Bool} {significand coefficient : ℕ} {exponent power : ℤ}

theorem pos (h : Denotes x negative significand exponent) : 0 < significand := by
  have hfull := h.full
  omega

theorem unpack (h : Denotes x negative significand exponent) :
    x.toModel.unpack = .finite (signOf negative) significand exponent h.pos :=
  unpack_of_word h.full h.fits h.pos h.bits

/-- What core packs is the number that was packed. -/
theorem of_pack (hfull : 2 ^ 52 ≤ significand) (hfits : Format.double.Fits significand exponent)
    (hpos : 0 < significand) (h : x.toModel = .pack (.finite (signOf negative) significand exponent hpos)) :
    Denotes x negative significand exponent := by
  have hbits : x.toBits = x.toModel.toBits := rfl
  refine ⟨hfull, hfits, ?_⟩
  rw [hbits, h]
  exact toNat_pack hfull hfits negative hpos

theorem toNat_ofNat {n : ℕ} (h : n < 2 ^ 64) : (UInt64.ofNat n).toBitVec.toNat = n := Nat.mod_eq_of_lt h

theorem word_lt (hfits : Format.double.Fits significand exponent) (negative : Bool) :
    Format.double.word negative significand exponent < 2 ^ 64 := by
  have hmagnitude : Format.double.magnitude significand exponent < 2 ^ 63 :=
    hfits.magnitude_lt.trans_le (by decide)
  have hweight : Format.double.signBit = 2 ^ 63 := rfl
  rw [Format.word, hweight]
  split <;> omega

theorem toModel_ofBits (bits : UInt64) :
    (Float.ofBits bits).toModel = .pack (UnpackedFloat.unpack .binary64 bits.toBitVec) := rfl

/-- A word of a number is the number. -/
theorem of_word (hfull : 2 ^ 52 ≤ significand) (hfits : Format.double.Fits significand exponent) (negative : Bool) :
    Denotes (.ofBits (.ofNat (Format.double.word negative significand exponent))) negative significand exponent := by
  have hpos : 0 < significand := by omega
  refine of_pack hfull hfits hpos ?_
  rw [toModel_ofBits, unpack_of_word hfull hfits hpos (toNat_ofNat (word_lt hfits negative))]

theorem partsOf_eq (h : Denotes x negative significand exponent) :
    partsOf x = .finite negative significand exponent := by
  rw [partsOf, h.bits, Format.decode_word h.fits]

/-- The other sign. -/
theorem neg (h : Denotes x negative significand exponent) : Denotes (-x) (!negative) significand exponent := by
  have hneg : (-x).toModel = .pack x.toModel.unpack.neg := rfl
  have hfinite : UnpackedFloat.neg (.finite (signOf negative) significand exponent h.pos) =
      .finite (signOf !negative) significand exponent h.pos := by cases negative <;> rfl
  refine of_pack h.full h.fits h.pos ?_
  rw [hneg, h.unpack, hfinite]

/-- A value with full significands in range says how many bits a significand has and which exponents may be last. -/
theorem shift_in_range {mantissa : ℕ} {start : ℤ} (hmantissa : 2 ^ 52 ≤ mantissa) {v : ℚ}
    (hlower : binary mantissa start ≤ v) (hupper : v < binary (mantissa + 1) start) (hlow : 2 ^ (-1000 : ℤ) ≤ v)
    (hhigh : v < 2 ^ (1000 : ℤ)) :
    ∃ shift : ℕ, 2 ^ (52 + shift) ≤ mantissa ∧ mantissa < 2 ^ (53 + shift) ∧ -1074 ≤ start + shift ∧
      start + shift ≤ 970 := by
  have hpos : mantissa ≠ 0 := by omega
  have hlog : 52 ≤ mantissa.log2 := (Nat.le_log2 hpos).mpr hmantissa
  have hself : 2 ^ mantissa.log2 ≤ mantissa := Nat.log2_self_le hpos
  have hnext : mantissa < 2 ^ (mantissa.log2 + 1) := Nat.lt_log2_self
  have hunit := twoPower_pos start
  have hmost : (mantissa.log2 : ℤ) + start < 1000 := by
    refine (zpow_lt_zpow_iff_right₀ (one_lt_two (α := ℚ))).mp ?_
    have hle : (2 : ℚ) ^ mantissa.log2 ≤ mantissa := by exact_mod_cast hself
    calc (2 : ℚ) ^ ((mantissa.log2 : ℤ) + start) = 2 ^ mantissa.log2 * 2 ^ start := by
          rw [zpow_add₀ two_ne_zero, zpow_natCast]
      _ ≤ mantissa * 2 ^ start := by gcongr
      _ ≤ v := hlower
      _ < 2 ^ (1000 : ℤ) := hhigh
  have hleast : -1000 < (mantissa.log2 : ℤ) + 1 + start := by
    refine (zpow_lt_zpow_iff_right₀ (one_lt_two (α := ℚ))).mp ?_
    have hle : ((mantissa + 1 : ℕ) : ℚ) ≤ 2 ^ (mantissa.log2 + 1) := by exact_mod_cast hnext
    calc (2 : ℚ) ^ (-1000 : ℤ) ≤ v := hlow
      _ < (mantissa + 1 : ℕ) * 2 ^ start := hupper
      _ ≤ 2 ^ (mantissa.log2 + 1) * 2 ^ start := by gcongr
      _ = 2 ^ ((mantissa.log2 : ℤ) + 1 + start) := by
        rw [zpow_add₀ two_ne_zero, ← zpow_natCast]
        push_cast
        rfl
  refine ⟨mantissa.log2 - 52, ?_, ?_, by omega, by omega⟩
  · rwa [Nat.add_sub_cancel' hlog]
  · have hsum : 53 + (mantissa.log2 - 52) = mantissa.log2 + 1 := by omega
    rwa [hsum]

/-- What is rounded is at most one last bit off. -/
theorem of_roundWithAccuracy {mantissa : ℕ} {start : ℤ} {accuracy : Accuracy} {v : ℚ}
    (hx : x.toModel = .pack (roundWithAccuracy .binary64 (signOf negative) mantissa start accuracy))
    (hmantissa : 2 ^ 52 ≤ mantissa) (hlower : binary mantissa start ≤ v) (hupper : v < binary (mantissa + 1) start)
    (hlow : 2 ^ (-1000 : ℤ) ≤ v) (hhigh : v < 2 ^ (1000 : ℤ)) :
    ∃ significand last, Denotes x negative significand last ∧ |binary significand last - v| * 2 ^ 52 ≤ v := by
  obtain ⟨shift, hfirst, hlast, hmin, hmax⟩ := shift_in_range hmantissa hlower hupper hlow hhigh
  obtain ⟨significand, last, hpos, hround, hfull, hfits, herror⟩ :=
    exists_roundWithAccuracy hfirst hlast hmin hmax (signOf negative) accuracy
  rw [hround] at hx
  exact ⟨significand, last, of_pack hfull hfits hpos hx, herror v hlower hupper⟩

/-- **A product** is at most one last bit off. -/
theorem mul (hx : Denotes x negative significand exponent) (hy : Denotes y other coefficient power)
    (hlow : 2 ^ (-1000 : ℤ) ≤ binary significand exponent * binary coefficient power)
    (hhigh : binary significand exponent * binary coefficient power < 2 ^ (1000 : ℤ)) :
    ∃ product last, Denotes (x * y) (negative ^^ other) product last ∧
      |binary product last - binary significand exponent * binary coefficient power| * 2 ^ 52 ≤
        binary significand exponent * binary coefficient power := by
  have hmul : (x * y).toModel = .pack (UnpackedFloat.mul .binary64 x.toModel.unpack y.toModel.unpack) := rfl
  have hfinite : UnpackedFloat.mul .binary64 (.finite (signOf negative) significand exponent hx.pos)
      (.finite (signOf other) coefficient power hy.pos) =
        roundWithAccuracy .binary64 (signOf (negative ^^ other)) (significand * coefficient) (exponent + power)
          .exact := by
    cases negative <;> cases other <;> rfl
  rw [hx.unpack, hy.unpack, hfinite] at hmul
  have hvalue : binary significand exponent * binary coefficient power =
      binary (significand * coefficient) (exponent + power) := by
    rw [binary, binary, binary, zpow_add₀ two_ne_zero]
    push_cast
    ring
  have hless : binary (significand * coefficient) (exponent + power) <
      binary (significand * coefficient + 1) (exponent + power) := by
    have hunit := twoPower_pos (exponent + power)
    rw [binary, binary]
    gcongr
    omega
  rw [hvalue] at hlow hhigh ⊢
  exact of_roundWithAccuracy hmul (hx.full.trans (Nat.le_mul_of_pos_right _ hy.pos)) (le_refl _) hless hlow hhigh

/-- Core divides full significands after it shifted the first by as many bits as a significand has. -/
theorem divCore_eq (hx : Denotes x negative significand exponent) (hy : Denotes y other coefficient power)
    (hrange : -1001 < exponent - power) :
    UnpackedFloat.divCore .binary64 significand exponent coefficient power =
      (significand * 2 ^ 53 / coefficient, exponent - power - 53,
        UnpackedFloat.accuracyOfFraction (significand * 2 ^ 53 % coefficient) coefficient) := by
  obtain ⟨hxBits, -, -⟩ := (double_fits_iff hx.full).mp hx.fits
  obtain ⟨hyBits, -, -⟩ := (double_fits_iff hy.full).mp hy.fits
  have hxLog : significand.log2 = 52 := (Nat.log2_eq_iff hx.pos.ne').mpr ⟨hx.full, hxBits⟩
  have hyLog : coefficient.log2 = 52 := (Nat.log2_eq_iff hy.pos.ne').mpr ⟨hy.full, hyBits⟩
  have htarget : min (exponent - power) (Float.Model.Format.targetExponent .binary64
      (Float.Model.totalExponent significand exponent - Float.Model.totalExponent coefficient power)) =
      exponent - power - 53 := by
    have hmax : Float.Model.Format.targetExponent .binary64
        (Float.Model.totalExponent significand exponent - Float.Model.totalExponent coefficient power) =
        max (((significand.log2 : ℤ) + 1 + exponent) - (coefficient.log2 + 1 + power) - (53 : ℕ)) (-1074) := rfl
    rw [hmax, hxLog, hyLog]
    omega
  have hshift : (exponent - power - (exponent - power - 53)).toNat = 53 := by omega
  rw [UnpackedFloat.divCore, htarget]
  simp only [hshift, Nat.shiftLeft_eq]

/-- Full significands are less than a factor of two apart, so that the exponents of a quotient in range are. -/
theorem sub_in_range (hx : Denotes x negative significand exponent) (hy : Denotes y other coefficient power)
    (hlow : 2 ^ (-1000 : ℤ) ≤ binary significand exponent / binary coefficient power) :
    -1001 < exponent - power := by
  obtain ⟨hxBits, -, -⟩ := (double_fits_iff hx.full).mp hx.fits
  have hyFull := hy.full
  have hyPos : (0 : ℚ) < coefficient := Nat.cast_pos.mpr hy.pos
  refine (zpow_lt_zpow_iff_right₀ (one_lt_two (α := ℚ))).mp ?_
  have hless : (significand : ℚ) < 2 * coefficient := by exact_mod_cast (by omega : significand < 2 * coefficient)
  have hfactor : binary significand exponent / binary coefficient power < 2 * 2 ^ (exponent - power) := by
    rw [binary, binary, mul_div_mul_comm, ← zpow_sub₀ two_ne_zero]
    gcongr
    exact (div_lt_iff₀ hyPos).mpr hless
  have hnext : (-1000 : ℤ) = -1001 + 1 := rfl
  rw [hnext, twoPower_succ] at hlow
  linarith

/-- **A quotient** is at most one last bit off. -/
theorem div (hx : Denotes x negative significand exponent) (hy : Denotes y other coefficient power)
    (hlow : 2 ^ (-1000 : ℤ) ≤ binary significand exponent / binary coefficient power)
    (hhigh : binary significand exponent / binary coefficient power < 2 ^ (1000 : ℤ)) :
    ∃ quotient last, Denotes (x / y) (negative ^^ other) quotient last ∧
      |binary quotient last - binary significand exponent / binary coefficient power| * 2 ^ 52 ≤
        binary significand exponent / binary coefficient power := by
  have hdiv : (x / y).toModel = .pack (UnpackedFloat.div .binary64 x.toModel.unpack y.toModel.unpack) := rfl
  obtain ⟨core, hcore⟩ : ∃ core, UnpackedFloat.divCore .binary64 significand exponent coefficient power = core :=
    ⟨_, rfl⟩
  have hfinite : UnpackedFloat.div .binary64 (.finite (signOf negative) significand exponent hx.pos)
      (.finite (signOf other) coefficient power hy.pos) =
        roundWithAccuracy .binary64 (signOf (negative ^^ other)) core.1 core.2.1 core.2.2 := by
    subst hcore
    cases negative <;> cases other <;> rfl
  obtain ⟨hyBits, -, -⟩ := (double_fits_iff hy.full).mp hy.fits
  have hyPos : (0 : ℚ) < coefficient := Nat.cast_pos.mpr hy.pos
  have hvalue : binary significand exponent / binary coefficient power =
      (significand * 2 ^ 53 : ℕ) / coefficient * 2 ^ (exponent - power - 53) := by
    have hpower : (2 : ℚ) ^ (exponent - power - 53) * 2 ^ 53 = 2 ^ exponent / 2 ^ power := by
      rw [← zpow_natCast, ← zpow_add₀ two_ne_zero, ← zpow_sub₀ two_ne_zero]
      congr 1
      omega
    rw [binary, binary, mul_div_mul_comm, ← hpower]
    push_cast
    ring
  rw [hx.unpack, hy.unpack, hfinite, ← hcore, divCore_eq hx hy (sub_in_range hx hy hlow)] at hdiv
  rw [hvalue] at hlow hhigh ⊢
  refine of_roundWithAccuracy hdiv ?_ ?_ ?_ hlow hhigh
  · rw [Nat.le_div_iff_mul_le hy.pos]
    exact Nat.mul_le_mul hx.full hyBits.le
  · have hle : ((significand * 2 ^ 53 / coefficient : ℕ) : ℚ) ≤ (significand * 2 ^ 53 : ℕ) / coefficient :=
      Nat.cast_div_le
    rw [binary]
    gcongr
  · have hless := div_lt_natDiv_add_one (significand * 2 ^ 53) coefficient
    rw [binary, Nat.cast_add_one]
    gcongr

end Denotes

end Orchestration.Number
