import Orchestration.Number.Binary

/-!
# Numbers that a person wrote

* `readFloat?` — a number with an optional sign, point and exponent, or the name of an infinity or of
  what is no number, in letters of any case.
* `readNatural?` — digits after an optional plus sign, up to a largest value.
* `readInteger?` — digits after an optional sign, between two bounds.

None of them allows blanks.
-/

namespace Orchestration.Number

/-- The value of a digit. -/
def digitValue (c : Char) : Nat := c.toNat - '0'.toNat

/-- The value of a hexadecimal digit. -/
def hexValue? (c : Char) : Option Nat :=
  if c.isDigit then some (digitValue c)
  else if 'a' ≤ c ∧ c ≤ 'f' then some (c.toNat - 'a'.toNat + 10)
  else if 'A' ≤ c ∧ c ≤ 'F' then some (c.toNat - 'A'.toNat + 10)
  else none

/-- The number that a row of digits stands for. -/
def digitsValue (ds : List Char) : Nat := ds.foldl (fun n c => 10 * n + digitValue c) 0

/-- A decimal numeral in its parts. -/
structure Numeral where
  /-- whether a minus sign stands in front -/
  negative : Bool
  /-- the digits before the point -/
  whole : List Char
  /-- the digits after the point -/
  fraction : List Char
  /-- the power of ten after the exponent mark -/
  exponent : Int
  deriving DecidableEq, Repr

namespace Numeral

/-- The digits of a numeral as one number. -/
def digits (n : Numeral) : Nat := digitsValue (n.whole ++ n.fraction)

/-- The nearest double-precision number. -/
def toFloat (n : Numeral) : Float :=
  .ofBits (.ofNat (Format.double.ofDecimal n.negative n.digits (n.exponent - n.fraction.length)))

end Numeral

/-- A sign, if there is one, and what follows it. -/
def readSign : List Char → Bool × List Char
  | '-' :: cs => (true, cs)
  | '+' :: cs => (false, cs)
  | cs => (false, cs)

/-- A row of digits and what follows it. -/
def spanDigits (cs : List Char) : List Char × List Char :=
  (cs.takeWhile Char.isDigit, cs.dropWhile Char.isDigit)

/-- The power of ten that a whole text names, nothing meaning zero. -/
def readExponent? : List Char → Option Int
  | [] => some 0
  | c :: cs =>
    if c = 'e' ∨ c = 'E' then
      let (negative, cs) := readSign cs
      let (ds, rest) := spanDigits cs
      if ds.isEmpty || !rest.isEmpty then none
      else some (if negative then -(digitsValue ds : Int) else digitsValue ds)
    else none

/-- A numeral: digits with an optional point among them, at least one digit, and an optional
exponent. -/
def readNumeral? (cs : List Char) : Option Numeral :=
  let (negative, cs) := readSign cs
  let (whole, cs) := spanDigits cs
  let (fraction, cs) := match cs with
    | '.' :: cs => spanDigits cs
    | cs => ([], cs)
  if whole.isEmpty && fraction.isEmpty then none
  else (readExponent? cs).map fun exponent => ⟨negative, whole, fraction, exponent⟩

/-- A double-precision number from its parts. -/
def floatOfParts (p : Parts) : Float := .ofBits (.ofNat (Format.double.ofParts p))

/-- A number that stands alone in a text. -/
def readFloat? (s : String) : Option Float :=
  let (negative, cs) := readSign s.toList
  let name := String.ofList (cs.map Char.toLower)
  if name = "inf" ∨ name = "infinity" then some (floatOfParts (.infinite negative))
  else if name = "nan" then some (floatOfParts .nan)
  else (readNumeral? s.toList).map (·.toFloat)

/-- A natural number of at most `limit` that stands alone in a text. -/
def readNatural? (limit : Nat) (s : String) : Option Nat :=
  let cs := match s.toList with
    | '+' :: cs => cs
    | cs => cs
  if cs.isEmpty || !cs.all Char.isDigit then none
  else
    let n := digitsValue cs
    if n ≤ limit then some n else none

/-- A whole number between two bounds that stands alone in a text. -/
def readInteger? (least most : Int) (s : String) : Option Int :=
  let (negative, cs) := readSign s.toList
  if cs.isEmpty || !cs.all Char.isDigit then none
  else
    let n : Int := digitsValue cs
    let n := if negative then -n else n
    if least ≤ n ∧ n ≤ most then some n else none

end Orchestration.Number
