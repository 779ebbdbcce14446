import Orchestration.Number.Power

/-!
# Numbers in binary notation

A floating-point format stores a sign, an exponent and a fraction. This module says which number a
word of bits stands for, and which word stands for the number nearest to a given fraction.

* `Format.single`, `Format.double` — the two formats of the library.
* `Format.decode` — the number that a word stands for, as `significand · 2 ^ exponent`.
* `Format.encode` — the word nearest to a fraction; of two at one distance, the one with an even
  significand; beyond the largest number, infinity.
-/

namespace Orchestration.Number

/-- The widths of the fields of a floating-point word. -/
structure Format where
  /-- the width of the fraction field -/
  fractionBits : Nat
  /-- the width of the exponent field -/
  exponentBits : Nat

namespace Format

/-- Words of 32 bits. -/
def single : Format := ⟨23, 8⟩

/-- Words of 64 bits. -/
def double : Format := ⟨52, 11⟩

/-- The exponent field of infinities and of what is no number. -/
def topExponent (f : Format) : Nat := twoTo f.exponentBits - 1

/-- The power of two that the last bit of the smallest numbers stands for. -/
def minExponent (f : Format) : Int :=
  2 - (twoTo (f.exponentBits - 1) : Int) - f.fractionBits

/-- The word of positive infinity. -/
def infinityBits (f : Format) : Nat := f.topExponent <<< f.fractionBits

/-- The word that stands for no number. -/
def nanBits (f : Format) : Nat := f.infinityBits + twoTo (f.fractionBits - 1)

/-- The weight of the sign bit. -/
def signBit (f : Format) : Nat := twoTo (f.fractionBits + f.exponentBits)

end Format

/-- What a word stands for. -/
inductive Parts where
  /-- no number -/
  | nan
  /-- an infinity -/
  | infinite (negative : Bool)
  /-- the number `significand · 2 ^ exponent`, with its sign -/
  | finite (negative : Bool) (significand : Nat) (exponent : Int)
  deriving DecidableEq, Repr

/-- The number that a word stands for. -/
def Format.decode (f : Format) (bits : Nat) : Parts :=
  let negative := bits / f.signBit % 2 == 1
  let exponent := bits >>> f.fractionBits % twoTo f.exponentBits
  let fraction := bits % twoTo f.fractionBits
  if exponent = f.topExponent then
    if fraction = 0 then .infinite negative else .nan
  else if exponent = 0 then .finite negative fraction f.minExponent
  else .finite negative (twoTo f.fractionBits + fraction) (f.minExponent + exponent - 1)

/-- A quotient rounded to the nearest integer; of two at one distance, to the even one. -/
def roundToEven (num den : Nat) : Nat :=
  let q := num / den
  let r := num % den
  if den < 2 * r ∨ (den = 2 * r ∧ q % 2 = 1) then q + 1 else q

/-- The fraction `num / den` times `2 ^ power`, as a fraction. -/
def scaled (num den : Nat) (power : Int) : Nat × Nat :=
  if 0 ≤ power then (num <<< power.toNat, den) else (num, den <<< (-power).toNat)

/-- The exponent of the greatest power of two that is at most `num / den`, which is positive. -/
def floorLog2 (num den : Nat) : Int :=
  let guess : Int := (num.log2 : Int) - den.log2
  let (n, d) := scaled num den (-guess)
  if n < d then guess - 1 else guess

/-- The word nearest to the fraction `num / den`. -/
def Format.encode (f : Format) (negative : Bool) (num den : Nat) : Nat :=
  let sign := if negative then f.signBit else 0
  if num = 0 then sign
  else
    let exponent := max f.minExponent (floorLog2 num den - f.fractionBits)
    let (n, d) := scaled num den (-exponent)
    let bits := ((exponent - f.minExponent).toNat <<< f.fractionBits) + roundToEven n d
    sign + min bits f.infinityBits

/-- The word nearest to the number that some parts stand for. -/
def Format.ofParts (f : Format) : Parts → Nat
  | .nan => f.nanBits
  | .infinite negative => (if negative then f.signBit else 0) + f.infinityBits
  | .finite negative significand exponent =>
    let (n, d) := scaled significand 1 exponent
    f.encode negative n d

/-- The word nearest to `digits · 10 ^ exponent`. Powers far outside the range of the format are not
computed. -/
def Format.ofDecimal (f : Format) (negative : Bool) (digits : Nat) (exponent : Int) : Nat :=
  let size : Int := exponent + (digits.log2 : Int)
  if digits = 0 ∨ exponent + (digits.log2 : Int) < -2000 then f.encode negative 0 1
  else if exponent > 2000 ∧ size > 2000 then f.ofParts (.infinite negative)
  else if 0 ≤ exponent then f.encode negative (digits * tenTo exponent.toNat) 1
  else f.encode negative digits (tenTo (-exponent).toNat)

end Orchestration.Number
