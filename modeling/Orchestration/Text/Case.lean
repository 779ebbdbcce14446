import Orchestration.Text.CaseTable
import Orchestration.Text.Ranges

/-!
# Small and capital letters

The small and the capital form of a text, in every script that has the two.

* A letter may become several: the capital of `ß` is `SS`.
* A capital sigma at the end of a word becomes the final `ς`; elsewhere it becomes `σ`. It ends a
  word when a letter with case stands before it and none after it, marks and the like passed over.
-/

namespace Orchestration.Text

/-- A character moved by the run it belongs to, or as it is. -/
def shiftIn (runs : List CaseRun) (c : Char) : Char :=
  match runs.find? fun r =>
      r.first ≤ c.toNat && c.toNat ≤ r.last && (c.toNat - r.first) % r.stride == 0 with
  | some r => Char.ofNat (c.toNat + r.shift).toNat
  | none => c

/-- The small form of a character that stands alone. -/
def lowerChar (c : Char) : List Char :=
  if c.toNat < 128 then [c.toLower]
  else if c = 'İ' then ['i', '\u0307']
  else [shiftIn lowerRuns c]

/-- The capital form of a character. -/
def upperChar (c : Char) : List Char :=
  if c.toNat < 128 then [c.toUpper]
  else match upperSequences.find? (·.1 == c.toNat) with
    | some (_, codes) => codes.map Char.ofNat
    | none => [shiftIn upperRuns c]

/-- Whether the nearest character that counts has case. -/
def nearestHasCase (cs : List Char) : Bool :=
  match cs.dropWhile (inRanges caseIgnorableRanges) with
  | c :: _ => inRanges casedRanges c
  | [] => false

/-- The small form of a text whose preceding characters, nearest first, are `before`. -/
def lowerAfter (before : List Char) : List Char → List Char
  | [] => []
  | c :: cs =>
    (if c = 'Σ' then [if nearestHasCase before && !nearestHasCase cs then 'ς' else 'σ']
      else lowerChar c) ++ lowerAfter (c :: before) cs

/-- The small form of a text. -/
def lower (s : String) : String := .ofList (lowerAfter [] s.toList)

/-- The capital form of a text. -/
def upper (s : String) : String := .ofList (s.toList.flatMap upperChar)

/-- Whether two texts differ at most in the case of their ASCII letters. -/
def sameAsciiLetters (a b : String) : Bool :=
  a.toList.map Char.toLower == b.toList.map Char.toLower

end Orchestration.Text
