import Orchestration.Text.Ranges

/-!
# Blanks

The characters that count as white space, and a text without the blanks at its ends.

* `dropBlanks_eq_nil_iff` — only a blank text trims to nothing.
* `trim_trim` — trimming twice is trimming once.
-/

namespace Orchestration.Text

/-- The white space characters: the five ASCII controls from tab to carriage return, the spaces of
every width, and the separators of lines and paragraphs. -/
def blankRanges : List (Nat × Nat) := [
  (9, 13), (32, 32), (133, 133), (160, 160), (5760, 5760), (8192, 8202), (8232, 8233),
  (8239, 8239), (8287, 8287), (12288, 12288)]

/-- Whether a character is white space. -/
def isBlank (c : Char) : Bool := inRanges blankRanges c

/-- Whether a character is a control: one of the 65 of the two control blocks. -/
def isControl (c : Char) : Bool := inRanges [(0, 31), (127, 159)] c

/-- The characters from the first that is not blank. -/
def dropBlanks (cs : List Char) : List Char := cs.dropWhile isBlank

/-- The characters up to the last that is not blank. -/
def dropLastBlanks (cs : List Char) : List Char := (dropBlanks cs.reverse).reverse

/-- The characters without the blanks at both ends. -/
def trimChars (cs : List Char) : List Char := dropLastBlanks (dropBlanks cs)

/-- A text without the blanks at its start. -/
def trimStart (s : String) : String := .ofList (dropBlanks s.toList)

/-- A text without the blanks at its end. -/
def trimEnd (s : String) : String := .ofList (dropLastBlanks s.toList)

/-- A text without the blanks at both ends. -/
def trim (s : String) : String := .ofList (trimChars s.toList)

/-- Whether nothing but blanks stands in a text. -/
def isBlankText (s : String) : Bool := s.toList.all isBlank

theorem dropBlanks_eq_nil_iff {cs : List Char} : dropBlanks cs = [] ↔ ∀ c ∈ cs, isBlank c := by
  induction cs with
  | nil => simp [dropBlanks]
  | cons c cs ih => by_cases h : isBlank c <;> simp_all [dropBlanks]

theorem dropBlanks_dropBlanks (cs : List Char) : dropBlanks (dropBlanks cs) = dropBlanks cs := by
  induction cs with
  | nil => rfl
  | cons c cs ih => by_cases h : isBlank c <;> simp_all [dropBlanks]

/-- A text that starts with no blank still starts with none when blanks are dropped at its end. -/
theorem dropBlanks_dropLastBlanks_of_fixed {cs : List Char} (h : dropBlanks cs = cs) :
    dropBlanks (dropLastBlanks cs) = dropLastBlanks cs := by
  cases cs with
  | nil => rfl
  | cons c cs =>
    have hc : isBlank c = false := by
      cases hb : isBlank c with
      | false => rfl
      | true =>
        have hlen := congrArg List.length h
        have hle : (cs.dropWhile isBlank).length ≤ cs.length :=
          (List.dropWhile_sublist _).length_le
        simp [dropBlanks, hb] at hlen
        omega
    -- the first character survives at the front
    have hdrop : ∃ t, dropBlanks ((c :: cs).reverse) = t ++ [c] := by
      have : ∀ l : List Char, ∃ t, dropBlanks (l ++ [c]) = t ++ [c] := by
        intro l
        induction l with
        | nil => exact ⟨[], by simp [dropBlanks, hc]⟩
        | cons x l ih =>
          by_cases hx : isBlank x
          · simpa [dropBlanks, hx] using ih
          · exact ⟨x :: l, by simp [dropBlanks, hx]⟩
      simpa using this cs.reverse
    obtain ⟨t, ht⟩ := hdrop
    rw [dropLastBlanks, ht]
    simp [dropBlanks, hc]

theorem dropLastBlanks_dropLastBlanks (cs : List Char) :
    dropLastBlanks (dropLastBlanks cs) = dropLastBlanks cs := by
  simp [dropLastBlanks, dropBlanks_dropBlanks]

/-- Trimming twice is trimming once. -/
theorem trim_trim (s : String) : trim (trim s) = trim s := by
  have h := dropBlanks_dropLastBlanks_of_fixed (dropBlanks_dropBlanks s.toList)
  simp [trim, trimChars, h, dropLastBlanks_dropLastBlanks]

end Orchestration.Text
