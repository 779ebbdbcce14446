import Orchestration.Json.Token
import Orchestration.Json.Value

/-!
# Documents as they were written

Between a text and the value it describes stands the tree of what was written: numbers by their
digits, fields in their order and as often as they occur. A reader takes from it what it wants, and
what it passes over need only be well formed.

* `Source.read?` — the tree of a text.
* `Source.number?` — what the digits of a number stand for.
* `Source.value?` — the tree as a document.
-/

namespace Orchestration

open Number

/-- A document as it was written. -/
inductive Source where
  | null
  | bool (value : Bool)
  /-- a number, and whether it is written without point and exponent -/
  | number (numeral : Numeral) (isWhole : Bool)
  /-- a text, or `none` if its escapes name no text -/
  | string (text : Option String)
  | array (items : List Source)
  | object (fields : List (Option String × Source))

namespace Source

instance : Inhabited Source := ⟨.null⟩

mutual

/-- The tree at the start of a list of tokens, and the tokens after it; `bound` exceeds the number of
tokens. -/
def readTree? : Nat → List JsonToken → Option (Source × List JsonToken)
  | 0, _ => none
  | bound + 1, tokens =>
    match tokens with
    | .null :: rest => some (.null, rest)
    | .bool b :: rest => some (.bool b, rest)
    | .number numeral isWhole :: rest => some (.number numeral isWhole, rest)
    | .string text :: rest => some (.string text, rest)
    | .leftBracket :: .rightBracket :: rest => some (.array [], rest)
    | .leftBracket :: rest => (readItems? bound rest).map fun (items, rest) => (.array items, rest)
    | .leftBrace :: .rightBrace :: rest => some (.object [], rest)
    | .leftBrace :: rest => (readFields? bound rest).map fun (fields, rest) => (.object fields, rest)
    | _ => none

/-- The trees up to a closing bracket, at least one. -/
def readItems? : Nat → List JsonToken → Option (List Source × List JsonToken)
  | 0, _ => none
  | bound + 1, tokens => do
    let (item, rest) ← readTree? bound tokens
    match rest with
    | .rightBracket :: rest => return ([item], rest)
    | .comma :: rest =>
      let (items, rest) ← readItems? bound rest
      return (item :: items, rest)
    | _ => none

/-- The named trees up to a closing brace, at least one. -/
def readFields? : Nat → List JsonToken → Option (List (Option String × Source) × List JsonToken)
  | 0, _ => none
  | bound + 1, tokens =>
    match tokens with
    | .string name :: .colon :: rest => do
      let (value, rest) ← readTree? bound rest
      match rest with
      | .rightBrace :: rest => return ([(name, value)], rest)
      | .comma :: rest =>
        let (fields, rest) ← readFields? bound rest
        return ((name, value) :: fields, rest)
      | _ => none
    | _ => none

end

/-- The tree of a text that consists of one document. -/
def read? (s : String) : Option Source := do
  let tokens ← JsonToken.scan? s
  match readTree? (2 * tokens.length + 1) tokens with
  | some (tree, []) => return tree
  | _ => none

/-! ### Numbers -/

/-- Digits taken into a number as long as it stays within 64 bits; how many were taken, and how many
were left. -/
def takeDigits (start : Nat) : List Char → Nat × Nat × Nat
  | [] => (start, 0, 0)
  | d :: ds =>
    let n := start * 10 + digitValue d
    if largest64 < n then (start, 0, ds.length + 1)
    else
      let (value, taken, left) := takeDigits n ds
      (value, taken + 1, left)

/-- A power of ten up to 308, as a double-precision number. -/
def powerOfTen (n : Nat) : Float := .ofBits (.ofNat (Format.double.ofDecimal false 1 n))

/-- A number times a power of ten: one multiplication or division, with steps of 308 for very small
results. A result beyond all numbers is refused. -/
def timesPower? : Nat → Float → Int → Option Float
  | 0, x, _ => some x
  | steps + 1, x, exponent =>
    if exponent.natAbs ≤ 308 then
      let power := powerOfTen exponent.natAbs
      if 0 ≤ exponent then
        let y := x * power
        if y.isInf then none else some y
      else some (x / power)
    else if x == 0.0 then some x
    else if 0 ≤ exponent then none
    else timesPower? steps (x / powerOfTen 308) (exponent + 308)

/-- A number given by 64 bits of its digits and a power of ten. -/
def scaledNumber? (negative : Bool) (significand : Nat) (exponent : Int) : Option JsonNumber := do
  let x := Float.ofBits (.ofNat (Format.double.encode false significand 1))
  -- three steps of 308 bring any 64 bits below the least number
  let y ← timesPower? 4 x exponent
  return .double (if negative then -y else y)

/-- What the digits of a number stand for. A whole number that 64 bits hold stays whole; of others
the digits that 64 bits hold count, and the rest only by their number. -/
def number? (n : Numeral) (isWhole : Bool) : Option JsonNumber :=
  let (whole, _, wholeLeft) := takeDigits 0 n.whole
  if isWhole && wholeLeft = 0 then
    if !n.negative then some (.integer whole)
    else if whole = 0 || twoTo 63 < whole then scaledNumber? true whole 0
    else some (.integer (-whole))
  else
    let (significand, taken, _) := takeDigits whole n.fraction
    let exponent : Int := wholeLeft - taken
    if n.exponent.natAbs < twoTo 31 then
      scaledNumber? n.negative significand (exponent + n.exponent)
    else if significand ≠ 0 ∧ 0 < n.exponent then none
    else some (.double (if n.negative then -0.0 else 0.0))

/-! ### Documents -/

/-- How deep a reader follows brackets: one more than the brackets that may enclose a value. -/
def depthLimit : Nat := 128

/-- The depth left inside a bracket, if it may be entered. -/
def enter? (depth : Nat) : Option Nat := if 2 ≤ depth then some (depth - 1) else none

mutual

/-- The tree as a document, if it is not nested too deeply and all its parts have a meaning. -/
def toJson? (depth : Nat) : Source → Option Json
  | .null => some .null
  | .bool b => some (.bool b)
  | .number numeral isWhole => (number? numeral isWhole).map .number
  | .string text => text.map .string
  | .array items =>
    match enter? depth with
    | some depth => (itemsToJson? depth items).map .array
    | none => none
  | .object fields =>
    match enter? depth with
    | some depth => (fieldsToJson? depth fields).map .ofFields
    | none => none

/-- Trees in a row as documents. -/
def itemsToJson? (depth : Nat) : List Source → Option (List Json)
  | [] => some []
  | item :: items =>
    match toJson? depth item, itemsToJson? depth items with
    | some item, some items => some (item :: items)
    | _, _ => none

/-- Named trees as named documents. -/
def fieldsToJson? (depth : Nat) : List (Option String × Source) → Option (List (String × Json))
  | [] => some []
  | (name, value) :: fields =>
    match name, toJson? depth value, fieldsToJson? depth fields with
    | some name, some value, some fields => some ((name, value) :: fields)
    | _, _, _ => none

end

/-- The tree as a document. -/
def value? (s : Source) : Option Json := s.toJson? depthLimit

end Source

/-- The document that a text describes. -/
def Json.read? (s : String) : Option Json := (Source.read? s).bind Source.value?

end Orchestration
