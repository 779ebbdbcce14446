/-!
# Finding and replacing

A text is read from the left; at each place a recogniser may claim the characters that follow, and
what it claims is not looked at again.

* `pieces` — the text as plain characters and claimed parts, leftmost first.
* `pieces_none` — where nothing is recognised, all characters are plain.
* `replaceAll` — every occurrence of a text replaced; what was put in is never searched.
* `splitFirst?`, `splitLast?`, `splitOn`, `lines` — a text cut at a separator.
-/

namespace Orchestration.Text

universe u

/-- A part of a text. -/
inductive Piece (α : Type u) where
  /-- a character that no recogniser claimed -/
  | plain (c : Char)
  /-- a claimed part, as what it was recognised for -/
  | found (value : α)

/-- The pieces of a text of which the first `skip` characters are claimed already. -/
def piecesAfter {α : Type u} (recognise : List Char → Option (α × List Char)) :
    Nat → List Char → List (Piece α)
  | _, [] => []
  | skip + 1, _ :: cs => piecesAfter recognise skip cs
  | 0, c :: cs =>
    match recognise (c :: cs) with
    | some (value, rest) => .found value :: piecesAfter recognise (cs.length - rest.length) cs
    | none => .plain c :: piecesAfter recognise 0 cs

/-- A text as plain characters and the parts a recogniser claims. The recogniser sees what is left
of the text and answers with a value and what follows the claimed part. -/
def pieces {α : Type u} (recognise : List Char → Option (α × List Char)) (cs : List Char) :
    List (Piece α) :=
  piecesAfter recognise 0 cs

/-- What the recogniser claims in a text, in order. -/
def findAll {α : Type u} (recognise : List Char → Option (α × List Char)) (cs : List Char) :
    List α :=
  (pieces recognise cs).filterMap fun
    | .plain _ => none
    | .found value => some value

/-- A text in which each claimed part gives way to its replacement. -/
def replaceFound {α : Type u} (recognise : List Char → Option (α × List Char))
    (replacement : α → List Char) (cs : List Char) : List Char :=
  (pieces recognise cs).flatMap fun
    | .plain c => [c]
    | .found value => replacement value

/-- The characters already claimed are passed over. -/
theorem piecesAfter_append {α : Type u} (recognise : List Char → Option (α × List Char))
    (claimed rest : List Char) :
    piecesAfter recognise claimed.length (claimed ++ rest) = pieces recognise rest := by
  induction claimed with
  | nil => rfl
  | cons c claimed ih => simpa [piecesAfter] using ih

theorem pieces_cons_none {α : Type u} {recognise : List Char → Option (α × List Char)}
    {c : Char} {cs : List Char} (h : recognise (c :: cs) = none) :
    pieces recognise (c :: cs) = .plain c :: pieces recognise cs := by
  simp [pieces, piecesAfter, h]

theorem pieces_cons_some {α : Type u} {recognise : List Char → Option (α × List Char)}
    {c : Char} {claimed rest : List Char} {value : α}
    (h : recognise (c :: claimed ++ rest) = some (value, rest)) :
    pieces recognise (c :: claimed ++ rest) = .found value :: pieces recognise rest := by
  have hlen : (claimed ++ rest).length - rest.length = claimed.length := by simp
  rw [pieces, List.cons_append, piecesAfter]
  rw [List.cons_append] at h
  simp only [h, hlen, piecesAfter_append]

/-- Where nothing is recognised, all characters are plain. -/
theorem pieces_none {α : Type u} {recognise : List Char → Option (α × List Char)}
    {cs : List Char} (h : ∀ before after, cs = before ++ after → recognise after = none) :
    pieces recognise cs = cs.map .plain := by
  induction cs with
  | nil => rfl
  | cons c cs ih =>
    rw [pieces_cons_none (h [] _ rfl), ih fun b a e => h (c :: b) a (by rw [e]; rfl), List.map_cons]

/-- Every occurrence of `old` replaced by `new`, leftmost first. -/
def replaceAll (old new : String) (s : String) : String :=
  .ofList (replaceFound (fun cs => (old.toList.isPrefixOf? cs).map ((), ·)) (fun _ => new.toList)
    s.toList)

/-- What stands before the first occurrence of a mark, and what follows it. -/
def splitFirst? (mark : List Char) : List Char → Option (List Char × List Char)
  | [] => if mark.isEmpty then some ([], []) else none
  | c :: cs =>
    match mark.isPrefixOf? (c :: cs) with
    | some rest => some ([], rest)
    | none => (splitFirst? mark cs).map fun (before, rest) => (c :: before, rest)

/-- What stands before the last occurrence of a character, and what follows it. -/
def splitLast? (mark : Char) : List Char → Option (List Char × List Char)
  | [] => none
  | c :: cs =>
    match splitLast? mark cs with
    | some (before, rest) => some (c :: before, rest)
    | none => if c = mark then some ([], cs) else none

/-- Whether a mark occurs in a text. -/
def occursIn (mark : String) (s : String) : Bool := (splitFirst? mark.toList s.toList).isSome

/-- The parts of a text between the occurrences of a character. -/
def splitOn (mark : Char) : List Char → List (List Char)
  | [] => [[]]
  | c :: cs =>
    if c = mark then [] :: splitOn mark cs
    else match splitOn mark cs with
      | first :: rest => (c :: first) :: rest
      | [] => [[c]]

/-- A line without a carriage return at its end. -/
def dropReturn (line : List Char) : List Char :=
  if line.getLast? = some '\r' then line.dropLast else line

/-- The lines of a text: a line ends with a line feed or with a carriage return and a line feed, and
nothing after the last end makes no line. -/
def lineList (cs : List Char) : List (List Char) :=
  let parts := splitOn '\n' cs
  parts.dropLast.map dropReturn ++ (parts.getLast?.filter (· ≠ [])).toList

/-- The lines of a text. -/
def lines (s : String) : List String := (lineList s.toList).map .ofList

end Orchestration.Text
