import Orchestration.Number.Binary

/-!
# Shortest decimal digits

The fewest decimal digits that read back as a given floating-point number, and of several such
digit sequences the nearest to the number.

The reals that round to a number `m · 2 ^ e` form an interval around it, whose ends belong to it
when `m` is even. A grid of decimals with `n` digits meets the interval if and only if one of the two
grid points next to the number lies in it, so it is enough to test these two for `n = 1, 2, …`.
-/

namespace Orchestration.Number

/-- Which of two equally near decimals is chosen. -/
inductive Tie where
  /-- the one with an even last digit -/
  | toEven
  /-- the larger -/
  | up
  deriving DecidableEq

/-- A decimal number `digits · 10 ^ exponent`. -/
structure Decimal where
  /-- the digits, as a number -/
  digits : Nat
  /-- the power of ten of the last digit -/
  exponent : Int
  deriving DecidableEq, Repr

/-- The fraction `num / den` divided by `10 ^ power`, as a fraction. -/
def perPowerOfTen (num den : Nat) (power : Int) : Nat × Nat :=
  if 0 ≤ power then (num, den * tenTo power.toNat) else (num * tenTo (-power).toNat, den)

/-- The exponent of the greatest power of ten that is at most `num / den`, which is positive. -/
def floorLog10 (num den : Nat) : Int :=
  let guess := floorLog2 num den * 30103 / 100000
  let (n, d) := perPowerOfTen num den guess
  if n < d then guess - 1 else if 10 * d ≤ n then guess + 1 else guess

/-- The interval of reals that round to a number, as numerators over one denominator. -/
structure Rounding where
  /-- the common denominator -/
  den : Nat
  /-- the lower end -/
  low : Nat
  /-- the number itself -/
  value : Nat
  /-- the upper end -/
  high : Nat
  /-- whether the ends round to the number too -/
  inclusive : Bool

/-- The interval of `significand · 2 ^ exponent`. Below a power of two the numbers lie twice as
dense as above it. -/
def Format.rounding (f : Format) (significand : Nat) (exponent : Int) : Rounding :=
  let below := if significand = twoTo f.fractionBits ∧ f.minExponent < exponent then 1 else 2
  let (unit, den) := scaled 1 1 (exponent - 2)
  { den
    low := (4 * significand - below) * unit
    value := 4 * significand * unit
    high := (4 * significand + 2) * unit
    inclusive := significand % 2 == 0 }

/-- Whether the decimal lies in the interval. -/
def Rounding.holds (r : Rounding) (x : Decimal) : Bool :=
  let (low, den) := perPowerOfTen r.low r.den x.exponent
  let (high, _) := perPowerOfTen r.high r.den x.exponent
  let point := x.digits * den
  if r.inclusive then low ≤ point && point ≤ high else low < point && point < high

/-- The decimal of the grid with the given power of ten that reads back and is nearest, if any. -/
def Rounding.onGrid? (r : Rounding) (tie : Tie) (power : Int) : Option Decimal :=
  let (num, den) := perPowerOfTen r.value r.den power
  let down : Decimal := ⟨num / den, power⟩
  let up : Decimal := ⟨num / den + 1, power⟩
  let rest := 2 * (num % den)
  match r.holds down, r.holds up with
  | false, false => none
  | true, false => some down
  | false, true => some up
  | true, true =>
    if rest < den then some down
    else if den < rest then some up
    else match tie with
      | .up => some up
      | .toEven => some (if down.digits % 2 = 0 then down else up)

/-- The first grid, from the given one to finer ones, that has a decimal reading back. -/
def Rounding.search (r : Rounding) (tie : Tie) : Nat → Int → Decimal
  | 0, power =>
    let (num, den) := perPowerOfTen r.value r.den power
    ⟨num / den, power⟩
  | tries + 1, power =>
    match r.onGrid? tie power with
    | some x => x
    | none => r.search tie tries (power - 1)

/-- The shortest decimal that reads back as the positive number `significand · 2 ^ exponent`; 17
digits are always enough. -/
def Format.shortest (f : Format) (tie : Tie) (significand : Nat) (exponent : Int) : Decimal :=
  let r := f.rounding significand exponent
  r.search tie 18 (floorLog10 r.value r.den)

end Orchestration.Number
