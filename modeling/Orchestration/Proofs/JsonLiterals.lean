import Orchestration.Json.Printer
import Orchestration.Json.Token
import Mathlib.Data.List.Forall2

/-!
# Text literals, written and read

Whatever characters a text has, its literal is read as that text again, and the reader stops behind it.

* `JsonToken.Spells` — the part of a literal that stands for a character.
* `JsonToken.readParts?_escape` — the parts of what is written spell the characters.
* `JsonToken.joinParts?_spells` — parts that spell a text are put together to that text.
* `JsonToken.readToken?_writeString` — a literal is read as its text.
-/

namespace Orchestration.JsonToken

open Json Number

/-- The part stands for the character: it is the character, or the unit of a control. -/
inductive Spells : Part → Char → Prop where
  /-- a character as itself, escaped or not -/
  | char (c : Char) : Spells (.char c) c
  /-- a control by its number -/
  | unit {c : Char} (h : c.toNat < 32) : Spells (.unit c.toNat) c

theorem hexValue?_hexDigit : ∀ n < 16, hexValue? (hexDigit n) = some n := by decide

/-- The four digits that a control is written with name it. -/
theorem hexUnit?_control {n : Nat} (h : n < 32) :
    hexUnit? '0' '0' (hexDigit (n / 16)) (hexDigit (n % 16)) = some n := by
  have hzero : hexValue? '0' = some 0 := by decide
  have hhigh := hexValue?_hexDigit (n / 16) (by omega)
  have hlow := hexValue?_hexDigit (n % 16) (by omega)
  rw [hexUnit?, hzero, hhigh, hlow]
  refine congrArg some ?_
  omega

theorem readParts?_plain {c : Char} (hquote : c ≠ '"') (hslash : c ≠ '\\') (hcontrol : ¬c.toNat < 32)
    (rest : List Char) :
    readParts? (c :: rest) = (readParts? rest).map fun (parts, after) => (.char c :: parts, after) := by
  rw [readParts?.eq_def]
  split
  · next h => cases h
  · next h => exact absurd (List.cons.inj h).1 hquote
  · next h => exact absurd (List.cons.inj h).1 hslash
  · next h => exact absurd (List.cons.inj h).1 hslash
  · next h =>
    obtain ⟨rfl, rfl⟩ := List.cons.inj h
    rw [if_neg (not_or.mpr ⟨hslash, hcontrol⟩)]

theorem readParts?_named {e c : Char} (he : escaped? e = some c) (hunit : e ≠ 'u') (rest : List Char) :
    readParts? ('\\' :: e :: rest) =
      (readParts? rest).map fun (parts, after) => (.char c :: parts, after) := by
  rw [readParts?.eq_def]
  split
  · next h => cases h
  · next h => cases h
  · next h =>
    obtain ⟨-, htail⟩ := List.cons.inj h
    exact absurd (List.cons.inj htail).1 hunit
  · next h =>
    obtain ⟨-, htail⟩ := List.cons.inj h
    obtain ⟨rfl, rfl⟩ := List.cons.inj htail
    rw [he]
    cases readParts? rest <;> rfl
  · next hnamed h =>
    obtain ⟨rfl, rfl⟩ := List.cons.inj h
    exact absurd rfl (hnamed e rest rfl)

theorem readParts?_unit {a b c d : Char} {n : Nat} (hunit : hexUnit? a b c d = some n) (rest : List Char) :
    readParts? ('\\' :: 'u' :: a :: b :: c :: d :: rest) =
      (readParts? rest).map fun (parts, after) => (.unit n :: parts, after) := by
  rw [readParts?, hunit]
  cases readParts? rest <;> rfl

/-- **A written character** is read as one part, which spells it. -/
theorem readParts?_escape (c : Char) :
    ∃ part, Spells part c ∧ ∀ rest,
      readParts? (escape c ++ rest) = (readParts? rest).map fun (parts, after) => (part :: parts, after) := by
  rw [escape.eq_def]
  split
  · exact ⟨.char _, .char _, readParts?_named rfl (by decide)⟩
  · exact ⟨.char _, .char _, readParts?_named rfl (by decide)⟩
  · exact ⟨.char _, .char _, readParts?_named rfl (by decide)⟩
  · exact ⟨.char _, .char _, readParts?_named rfl (by decide)⟩
  · exact ⟨.char _, .char _, readParts?_named rfl (by decide)⟩
  · exact ⟨.char _, .char _, readParts?_named rfl (by decide)⟩
  · exact ⟨.char _, .char _, readParts?_named rfl (by decide)⟩
  · next hquote hslash _ _ _ _ _ =>
    by_cases hcontrol : c.toNat < 32
    · rw [if_pos hcontrol]
      exact ⟨.unit c.toNat, .unit hcontrol, readParts?_unit (hexUnit?_control hcontrol)⟩
    · rw [if_neg hcontrol]
      exact ⟨.char c, .char c, readParts?_plain hquote hslash hcontrol⟩

/-- The parts of a written text spell it, and the reader stops at the closing quote. -/
theorem readParts?_write (cs rest : List Char) :
    ∃ parts, List.Forall₂ Spells parts cs ∧
      readParts? (cs.flatMap escape ++ '"' :: rest) = some (parts, rest) := by
  induction cs with
  | nil => exact ⟨[], .nil, rfl⟩
  | cons c cs ih =>
    obtain ⟨part, hpart, hread⟩ := readParts?_escape c
    obtain ⟨parts, hparts, hrest⟩ := ih
    refine ⟨part :: parts, .cons hpart hparts, ?_⟩
    rw [List.flatMap_cons, List.append_assoc, hread, hrest]
    rfl

/-- A unit below the halves of pairs is a character of its own, whatever follows it. -/
theorem joinParts?_unit {n : Nat} (h : n < 32) (parts : List Part) :
    joinParts? (.unit n :: parts) = (joinParts? parts).map (Char.ofNat n :: ·) := by
  have hhigh : ¬(0xD800 ≤ n ∧ n ≤ 0xDBFF) := by omega
  have hlow : ¬(0xDC00 ≤ n ∧ n ≤ 0xDFFF) := by omega
  have hhalf : ¬(0xD800 ≤ n ∧ n ≤ 0xDFFF) := by omega
  cases parts with
  | nil =>
    rw [joinParts?.eq_def]
    exact if_neg hhalf
  | cons part parts =>
    cases part with
    | char c =>
      rw [joinParts?.eq_def]
      exact if_neg hhalf
    | unit low => rw [joinParts?, if_neg hhigh, if_neg hlow]

theorem joinParts?_spells {parts : List Part} {cs : List Char} (h : List.Forall₂ Spells parts cs) :
    joinParts? parts = some cs := by
  induction h with
  | nil => rfl
  | cons hpart _ ih =>
    cases hpart with
    | char c => rw [joinParts?, ih, Option.map_some]
    | unit hcontrol => rw [joinParts?_unit hcontrol, ih, Option.map_some, Char.ofNat_toNat]

/-- **A literal is read as its text**, and what follows it is left. -/
theorem readToken?_writeString (s : String) (rest : List Char) :
    readToken? (writeString s ++ rest) = some (.string (some s), rest) := by
  obtain ⟨parts, hparts, hread⟩ := readParts?_write s.toList rest
  have hliteral : writeString s ++ rest = '"' :: (s.toList.flatMap escape ++ '"' :: rest) := by
    simp [writeString]
  rw [hliteral]
  have hstring : readToken? ('"' :: (s.toList.flatMap escape ++ '"' :: rest)) =
      readString? (s.toList.flatMap escape ++ '"' :: rest) := rfl
  rw [hstring, readString?, hread]
  simp only [Option.map_some, joinParts?_spells hparts, String.ofList_toList]

end Orchestration.JsonToken
