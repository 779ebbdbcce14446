import Orchestration.Number.Shortest
import Orchestration.Number.Single

/-!
# Numbers in writing

How a number is laid out once its digits are known. Each place that writes numbers chooses one
`Layout` and is otherwise the same.

* `Layout.document` — numbers in structured documents: a point is always there, and very large and
  very small numbers have an exponent.
* `Layout.plain` — numbers in running text: never an exponent, no point for whole numbers.
* `fixed` — a number with a given count of decimal places, a half going to the even neighbour.
-/

namespace Orchestration.Number

/-- The choices left once the digits of a number are known. -/
structure Layout where
  /-- which of two equally short and near decimals -/
  tie : Tie
  /-- the least scientific exponent that is written positionally, if there is one -/
  leastPositional : Option Int
  /-- the first scientific exponent that is no longer written positionally, if there is one -/
  firstScientific : Option Int
  /-- whether whole numbers end in `.0` -/
  keepsPoint : Bool

/-- Numbers in structured documents. -/
def Layout.document : Layout := ⟨.toEven, some (-5), some 16, true⟩

/-- Numbers in running text. -/
def Layout.plain : Layout := ⟨.up, none, none, false⟩

/-- The digits of a natural number. -/
def digitChars (n : Nat) : List Char := Nat.toDigits 10 n

/-- Whether a number of this scientific exponent is written positionally. -/
def Layout.isPositional (l : Layout) (exponent : Int) : Bool :=
  l.leastPositional.all (· ≤ exponent) && l.firstScientific.all (exponent < ·)

/-- Digits without the zeros at the end, which move to the exponent. -/
def dropZeros : Nat → Nat → Int → Decimal
  | 0, digits, exponent => ⟨digits, exponent⟩
  | tries + 1, digits, exponent =>
    if digits % 10 = 0 ∧ digits ≠ 0 then dropZeros tries (digits / 10) (exponent + 1)
    else ⟨digits, exponent⟩

/-- A positive decimal in writing. -/
def Layout.write (l : Layout) (x : Decimal) : String :=
  let x := dropZeros 20 x.digits x.exponent
  let ds := digitChars x.digits
  let count : Int := ds.length
  let scientific := count - 1 + x.exponent
  let whole := if l.keepsPoint then ".0" else ""
  if l.isPositional scientific then
    if 0 ≤ x.exponent then
      .ofList (ds ++ List.replicate x.exponent.toNat '0') ++ whole
    else if 0 ≤ scientific then
      let cut := (scientific + 1).toNat
      .ofList (ds.take cut ++ '.' :: ds.drop cut)
    else .ofList ('0' :: '.' :: List.replicate (-scientific - 1).toNat '0' ++ ds)
  else
    let mantissa := match ds with
      | [] => []
      | [d] => [d]
      | d :: rest => d :: '.' :: rest
    let mark := if scientific < 0 then "e-" else "e+"
    .ofList mantissa ++ mark ++ .ofList (digitChars scientific.natAbs)

/-- A number of the format in writing; `none` for an infinity and for what is no number. -/
def Layout.writeParts? (l : Layout) (f : Format) : Parts → Option String
  | .nan | .infinite _ => none
  | .finite negative significand exponent =>
    let sign := if negative then "-" else ""
    if significand = 0 then some (sign ++ if l.keepsPoint then "0.0" else "0")
    else some (sign ++ l.write (f.shortest l.tie significand exponent))

/-- What a double-precision number stands for. -/
def partsOf (x : Float) : Parts := Format.double.decode x.toBits.toNat

/-- Whether a double-precision number is neither infinite nor undefined. -/
def isFinite (x : Float) : Bool :=
  match partsOf x with
  | .finite .. => true
  | _ => false

/-- A finite double-precision number in a structured document. -/
def documentText? (x : Float) : Option String :=
  Layout.document.writeParts? .double (partsOf x)

/-- A finite single-precision number in a structured document. -/
def Single.documentText? (x : Single) : Option String :=
  Layout.document.writeParts? .single x.parts

/-- A text for what is not finite. -/
def unboundedText : Parts → String
  | .infinite true => "-inf"
  | .infinite false => "inf"
  | _ => "NaN"

/-- A number in running text. -/
def plainText (x : Float) : String :=
  (Layout.plain.writeParts? .double (partsOf x)).getD (unboundedText (partsOf x))

/-- A number with the given count of decimal places. -/
def fixed (places : Nat) (x : Float) : String :=
  match partsOf x with
  | .finite negative significand exponent =>
    let (num, den) := scaled significand 1 exponent
    let units := roundToEven (num * tenTo places) den
    let ds := digitChars units
    let ds := List.replicate (places + 1 - ds.length) '0' ++ ds
    let cut := ds.length - places
    let point := if places = 0 then [] else '.' :: ds.drop cut
    (if negative then "-" else "") ++ .ofList (ds.take cut ++ point)
  | other => unboundedText other

end Orchestration.Number
