import Mathlib.Data.List.Infix
import Mathlib.Data.List.TakeWhile
import Orchestration.Text.Blank
import Orchestration.Text.Search

/-!
# Scanning a text part by part

Where a text is put together of parts, a scan of it goes on from part to part: through characters at which
nothing is recognised, and past a part that is recognised as a whole.

* `Declined` — nothing is recognised at any character of a part.
* `pieces_induction` — what is shown along a scan, piece by piece.
* `findAll_append_plain`, `findAll_append_found` — what is found behind a part.
* `replaceFound_append_plain`, `replaceFound_append_found` — what is put in place of a part.
* `splitFirst?_append`, `splitLast?_append`, `splitLast?_cases` — a cut behind a part and before one.
* `prefix_of_prefix_append_cons`, `infix_append_cons` — a mark does not reach over a character that it does not have.
* `takeWhile_append_ended`, `dropWhile_append_ended`, `dropBlanks_append` — a run of one kind.
* `trimChars_append`, `exists_trimChars`, `exists_trimChars_append`, `trimChars_pad` — a text without the blanks at its
  ends.
-/

namespace Orchestration.Text

universe u

/-! ### Recognisers -/

section Recogniser

variable {α : Type u} {recognise : List Char → Option (α × List Char)} {part rest : List Char}

/-- Nothing is recognised at any character of the part, with the rest behind it. -/
def Declined (recognise : List Char → Option (α × List Char)) (part rest : List Char) : Prop :=
  ∀ s, s <:+ part → s ≠ [] → recognise (s ++ rest) = none

/-- A character may be such that nothing is recognised there, whatever follows. -/
theorem declined_of_forall_mem (h : ∀ c ∈ part, ∀ cs, recognise (c :: cs) = none) (rest : List Char) :
    Declined recognise part rest := by
  intro s hs hne
  obtain ⟨c, s, rfl⟩ := List.exists_cons_of_ne_nil hne
  exact h c (hs.subset List.mem_cons_self) _

theorem pieces_append_plain (h : Declined recognise part rest) :
    pieces recognise (part ++ rest) = part.map .plain ++ pieces recognise rest := by
  induction part with
  | nil => rfl
  | cons c part ih =>
    have hc : recognise (c :: (part ++ rest)) = none := h _ List.suffix_rfl (List.cons_ne_nil _ _)
    rw [List.cons_append, pieces_cons_none hc,
      ih fun s hs => h s (hs.trans (List.suffix_cons c part)), List.map_cons, List.cons_append]

/-- A part that is recognised as a whole is one piece. -/
theorem pieces_append_found {value : α} (hne : part ≠ [])
    (h : recognise (part ++ rest) = some (value, rest)) :
    pieces recognise (part ++ rest) = .found value :: pieces recognise rest := by
  obtain ⟨c, claimed, rfl⟩ := List.exists_cons_of_ne_nil hne
  exact pieces_cons_some h

/-- **Along a scan**: what holds of nothing, and with a character that is passed over or a part that is claimed before
what it held of, holds of every text and its pieces. -/
theorem pieces_induction {motive : List Char → List (Piece α) → Prop}
    (claims : ∀ cs value rest, recognise cs = some (value, rest) → ∃ part, part ≠ [] ∧ cs = part ++ rest)
    (nil : motive [] [])
    (plain : ∀ c cs, recognise (c :: cs) = none → motive cs (pieces recognise cs) →
      motive (c :: cs) (.plain c :: pieces recognise cs))
    (found : ∀ part rest value, recognise (part ++ rest) = some (value, rest) → motive rest (pieces recognise rest) →
      motive (part ++ rest) (.found value :: pieces recognise rest))
    (cs : List Char) : motive cs (pieces recognise cs) := by
  induction hlength : cs.length using Nat.strong_induction_on generalizing cs with
  | _ n ih =>
    cases cs with
    | nil => exact nil
    | cons c cs =>
      cases hfound : recognise (c :: cs) with
      | none =>
        have hshorter : cs.length < n := by
          rw [← hlength, List.length_cons]
          exact Nat.lt_succ_self _
        rw [pieces_cons_none hfound]
        exact plain c cs hfound (ih _ hshorter cs rfl)
      | some claimed =>
        obtain ⟨value, rest⟩ := claimed
        obtain ⟨part, hne, hparts⟩ := claims _ _ _ hfound
        have hshorter : rest.length < n := by
          have hpos := List.length_pos_iff.mpr hne
          rw [← hlength, hparts, List.length_append]
          omega
        rw [hparts] at hfound ⊢
        rw [pieces_append_found hne hfound]
        exact found part rest value hfound (ih _ hshorter rest rfl)

theorem findAll_append_plain (h : Declined recognise part rest) :
    findAll recognise (part ++ rest) = findAll recognise rest := by
  rw [findAll, pieces_append_plain h, List.filterMap_append, List.filterMap_map, findAll]
  simp

theorem findAll_append_found {value : α} (hne : part ≠ [])
    (h : recognise (part ++ rest) = some (value, rest)) :
    findAll recognise (part ++ rest) = value :: findAll recognise rest := by
  rw [findAll, pieces_append_found hne h, List.filterMap_cons, findAll]

/-- A character at which nothing is recognised is passed over. -/
theorem findAll_cons_none {c : Char} {cs : List Char} (h : recognise (c :: cs) = none) :
    findAll recognise (c :: cs) = findAll recognise cs := by
  rw [findAll, pieces_cons_none h, List.filterMap_cons, findAll]

/-- What is recognised at the start of a text is found first. -/
theorem head?_findAll {c : Char} {cs rest : List Char} {value : α} (h : recognise (c :: cs) = some (value, rest)) :
    (findAll recognise (c :: cs)).head? = some value := by
  simp [findAll, pieces, piecesAfter, h]

/-- Where nothing is found, nothing is recognised at any character. -/
theorem recognise_eq_none_of_findAll {cs : List Char} (h : (findAll recognise cs).head? = none) :
    ∀ s, s <:+ cs → s ≠ [] → recognise s = none := by
  induction cs with
  | nil => exact fun s hs hne => absurd (List.suffix_nil.mp hs) hne
  | cons c cs ih =>
    have hfirst : recognise (c :: cs) = none := by
      cases hc : recognise (c :: cs) with
      | none => rfl
      | some found =>
        rw [head?_findAll hc] at h
        cases h
    intro s hs hne
    rcases List.suffix_cons_iff.mp hs with rfl | hs
    · exact hfirst
    · refine ih ?_ s hs hne
      rwa [findAll_cons_none hfirst] at h

/-- What is found first is recognised behind a part in which nothing is. -/
theorem exists_of_head?_findAll {cs : List Char} {value : α} (h : (findAll recognise cs).head? = some value) :
    ∃ lead start rest, cs = lead ++ start ∧ recognise start = some (value, rest) ∧ Declined recognise lead start := by
  induction cs with
  | nil => cases h
  | cons c cs ih =>
    cases hc : recognise (c :: cs) with
    | some found =>
      obtain ⟨value', rest⟩ := found
      rw [head?_findAll hc] at h
      cases h
      exact ⟨[], c :: cs, rest, rfl, hc, fun s hs hne => absurd (List.suffix_nil.mp hs) hne⟩
    | none =>
      rw [findAll_cons_none hc] at h
      obtain ⟨lead, start, rest, rfl, hstart, hlead⟩ := ih h
      refine ⟨c :: lead, start, rest, rfl, hstart, fun s hs hne => ?_⟩
      rcases List.suffix_cons_iff.mp hs with rfl | hs
      · exact hc
      · exact hlead s hs hne

variable {replacement : α → List Char}

theorem replaceFound_cons_none {c : Char} {cs : List Char} (h : recognise (c :: cs) = none) :
    replaceFound recognise replacement (c :: cs) = c :: replaceFound recognise replacement cs := by
  rw [replaceFound, pieces_cons_none h, List.flatMap_cons, replaceFound, List.singleton_append]

theorem replaceFound_append_plain (h : Declined recognise part rest) :
    replaceFound recognise replacement (part ++ rest) =
      part ++ replaceFound recognise replacement rest := by
  rw [replaceFound, pieces_append_plain h, List.flatMap_append, List.flatMap_map, replaceFound]
  simp

theorem replaceFound_append_found {value : α} (hne : part ≠ [])
    (h : recognise (part ++ rest) = some (value, rest)) :
    replaceFound recognise replacement (part ++ rest) =
      replacement value ++ replaceFound recognise replacement rest := by
  rw [replaceFound, pieces_append_found hne h, List.flatMap_cons, replaceFound]

end Recogniser

/-! ### Marks -/

/-- A mark does not start at a character that is not its first. -/
theorem isPrefixOf?_cons_ne {m c : Char} {ms cs : List Char} (h : c ≠ m) :
    (m :: ms).isPrefixOf? (c :: cs) = none := by
  simp [List.isPrefixOf?, h.symm]

theorem isPrefixOf?_append (mark rest : List Char) : mark.isPrefixOf? (mark ++ rest) = some rest :=
  List.isPrefixOf?_eq_some_iff_append_eq.mpr rfl

/-- A mark that a text does not start with is not taken from it. -/
theorem isPrefixOf?_eq_none_iff {mark cs : List Char} : mark.isPrefixOf? cs = none ↔ ¬mark <+: cs := by
  rw [← Option.not_isSome_iff_eq_none, List.isSome_isPrefixOf?_eq_isPrefixOf, List.isPrefixOf_iff_prefix]

/-- The text is cut behind a part in which the mark cannot start. -/
theorem splitFirst?_append {m : Char} {ms part : List Char} (h : m ∉ part) (rest : List Char) :
    splitFirst? (m :: ms) (part ++ rest) = (splitFirst? (m :: ms) rest).map (Prod.map (part ++ ·) id) := by
  induction part with
  | nil => exact (Option.map_id' (x := splitFirst? (m :: ms) rest)).symm
  | cons c part ih =>
    obtain ⟨hc, hpart⟩ := not_or.mp (mt List.mem_cons.mpr h)
    rw [List.cons_append, splitFirst?, isPrefixOf?_cons_ne (Ne.symm hc), ih hpart, Option.map_map]
    rfl

/-- The text is cut at the mark it starts with. -/
theorem splitFirst?_mark (m : Char) (ms rest : List Char) :
    splitFirst? (m :: ms) (m :: ms ++ rest) = some ([], rest) := by
  rw [List.cons_append, splitFirst?, ← List.cons_append, isPrefixOf?_append]

section Mark

variable {mark part rest before cs : List Char} {c : Char}

/-- A mark does not reach over a character that it has at most at its start. -/
theorem prefix_of_prefix_append_cons (hc : c ∉ mark.tail) (hne : part ≠ []) (h : mark <+: part ++ c :: cs) :
    mark <+: part := by
  have hnext : part ++ [c] <+: part ++ c :: cs := ⟨cs, by simp⟩
  rcases List.prefix_or_prefix_of_prefix h hnext with hp | hp
  · rcases List.prefix_concat_iff.mp hp with rfl | hp
    · obtain ⟨d, part, rfl⟩ := List.exists_cons_of_ne_nil hne
      exact absurd (by simp) hc
    · exact hp
  · obtain ⟨d, part, rfl⟩ := List.exists_cons_of_ne_nil hne
    obtain ⟨more, rfl⟩ := hp
    exact absurd (by simp) hc

/-- So it occurs on one side of such a character, or starts with it. -/
theorem infix_append_cons (hc : c ∉ mark.tail) (h : mark <:+: part ++ c :: cs) :
    mark <:+: part ∨ mark <:+: c :: cs := by
  induction part with
  | nil => exact .inr h
  | cons d part ih =>
    rcases List.infix_cons_iff.mp h with hp | hi
    · exact .inl (prefix_of_prefix_append_cons hc (List.cons_ne_nil d part) hp).isInfix
    · exact (ih hi).imp_left (List.infix_cons ·)

/-- A character that a mark does not start with can be passed over. -/
theorem infix_cons_of_ne (hc : mark.head? ≠ some c) (hne : mark ≠ []) (h : mark <:+: c :: cs) : mark <:+: cs := by
  rcases List.infix_cons_iff.mp h with hp | hi
  · obtain ⟨m, ms, rfl⟩ := List.exists_cons_of_ne_nil hne
    exact absurd (congrArg some (List.cons_prefix_cons.mp hp).1) hc
  · exact hi

/-- A part without the character that a mark starts with can be passed over. -/
theorem infix_of_infix_append (hhead : mark.head? = some c) (hpart : c ∉ part) (h : mark <:+: part ++ cs) :
    mark <:+: cs := by
  have hne : mark ≠ [] := List.ne_nil_of_mem (List.mem_of_mem_head? hhead)
  induction part with
  | nil => exact h
  | cons d part ih =>
    obtain ⟨hd, hpart⟩ := not_or.mp (mt List.mem_cons.mpr hpart)
    refine ih hpart (infix_cons_of_ne (fun heq => hd ?_) hne h)
    exact Option.some.inj (hhead.symm.trans heq)

/-- **A text without the mark** is not cut. -/
theorem splitFirst?_eq_none_iff : splitFirst? mark cs = none ↔ ¬mark <:+: cs := by
  induction cs with
  | nil => simp [splitFirst?]
  | cons c cs ih =>
    rw [splitFirst?, List.infix_cons_iff]
    cases hmark : mark.isPrefixOf? (c :: cs) with
    | some rest =>
      have hp : mark <+: c :: cs := ⟨rest, List.isPrefixOf?_eq_some_iff_append_eq.mp hmark⟩
      simp [hp]
    | none =>
      have hp : ¬mark <+: c :: cs := isPrefixOf?_eq_none_iff.mp hmark
      simp [hp, ih]

/-- The text is cut at the first mark. -/
theorem splitFirst?_append_mark (hne : mark ≠ []) (h : ∀ s, s <:+ part → s ≠ [] → ¬mark <+: s ++ (mark ++ rest)) :
    splitFirst? mark (part ++ (mark ++ rest)) = some (part, rest) := by
  induction part with
  | nil =>
    obtain ⟨m, ms, rfl⟩ := List.exists_cons_of_ne_nil hne
    exact splitFirst?_mark m ms rest
  | cons c part ih =>
    have hc : mark.isPrefixOf? (c :: (part ++ (mark ++ rest))) = none :=
      isPrefixOf?_eq_none_iff.mpr (h (c :: part) List.suffix_rfl (List.cons_ne_nil _ _))
    rw [List.cons_append, splitFirst?, hc, ih fun s hs => h s (hs.trans (List.suffix_cons c part))]
    rfl

/-- Where a text is cut there is a mark, and before it there is none. -/
theorem splitFirst?_eq_some (hne : mark ≠ []) (h : splitFirst? mark cs = some (before, rest)) :
    cs = before ++ (mark ++ rest) ∧ ¬mark <:+: before := by
  have hstart : ¬mark <:+: [] := fun hi => hne (List.infix_nil.mp hi)
  induction cs generalizing before with
  | nil =>
    rw [splitFirst?, if_neg (by simpa using hne)] at h
    cases h
  | cons c cs ih =>
    rw [splitFirst?] at h
    split at h
    · next found hfound =>
      cases h
      exact ⟨(List.isPrefixOf?_eq_some_iff_append_eq.mp hfound).symm, hstart⟩
    · next hnone =>
      obtain ⟨⟨before', rest'⟩, hcut, heq⟩ := Option.map_eq_some_iff.mp h
      cases heq
      obtain ⟨rfl, hbefore⟩ := ih hcut
      -- a mark before the cut would start at this character, where there was none, or later
      refine ⟨rfl, fun hinfix => ?_⟩
      rcases List.infix_cons_iff.mp hinfix with hp | hi
      · exact isPrefixOf?_eq_none_iff.mp hnone (hp.trans (List.prefix_append (c :: before') _))
      · exact hbefore hi

end Mark

theorem splitLast?_eq_none {mark : Char} {cs : List Char} (h : mark ∉ cs) :
    splitLast? mark cs = none := by
  induction cs with
  | nil => rfl
  | cons c cs ih =>
    obtain ⟨hc, hcs⟩ := not_or.mp (mt List.mem_cons.mpr h)
    simp only [splitLast?, ih hcs, if_neg (Ne.symm hc)]

/-- Where a text is cut at its last mark, none is left behind the cut; one that is not cut has none. -/
theorem splitLast?_cases (mark : Char) (cs : List Char) :
    (∃ before after, splitLast? mark cs = some (before, after) ∧ cs = before ++ mark :: after ∧ mark ∉ after) ∨
      splitLast? mark cs = none ∧ mark ∉ cs := by
  induction cs with
  | nil => exact .inr ⟨rfl, List.not_mem_nil⟩
  | cons c cs ih =>
    rcases ih with ⟨before, after, hcut, rfl, hafter⟩ | ⟨hnone, hcs⟩
    · exact .inl ⟨c :: before, after, by rw [splitLast?, hcut], rfl, hafter⟩
    · by_cases hc : c = mark
      · exact .inl ⟨[], cs, by simp only [splitLast?, hnone, if_pos hc], by rw [hc, List.nil_append], hcs⟩
      · refine .inr ⟨by simp only [splitLast?, hnone, if_neg hc], fun hmem => ?_⟩
        rcases List.mem_cons.mp hmem with rfl | hmem
        · exact hc rfl
        · exact hcs hmem

/-- The text is cut before a part without the mark. -/
theorem splitLast?_append {mark : Char} {after : List Char} (h : mark ∉ after) (before : List Char) :
    splitLast? mark (before ++ mark :: after) = some (before, after) := by
  induction before with
  | nil => simp [splitLast?, splitLast?_eq_none h]
  | cons c before ih => rw [List.cons_append, splitLast?, ih]

/-! ### Runs -/

section Run

variable {α : Type u} {p : α → Bool} {run rest cs : List α} {c : α}

/-- A run ends where what comes next is not of its kind. -/
theorem takeWhile_append_ended (h : ∀ d ∈ run, p d) (hrest : ∀ d ∈ rest.head?, p d = false) :
    (run ++ rest).takeWhile p = run := by
  rw [List.takeWhile_append_of_pos h]
  cases rest with
  | nil => rw [List.takeWhile_nil, List.append_nil]
  | cons c rest => rw [List.takeWhile_cons_of_neg (by simp [hrest c rfl]), List.append_nil]

theorem dropWhile_append_ended (h : ∀ d ∈ run, p d) (hrest : ∀ d ∈ rest.head?, p d = false) :
    (run ++ rest).dropWhile p = rest := by
  rw [List.dropWhile_append_of_pos h]
  cases rest with
  | nil => rfl
  | cons c rest => rw [List.dropWhile_cons_of_neg (by simp [hrest c rfl])]

/-- A run ends before the first character that is not of its kind. -/
theorem takeWhile_append_stop (h : ∀ d ∈ run, p d) (hc : p c = false) :
    (run ++ c :: cs).takeWhile p = run :=
  takeWhile_append_ended h (by rintro d ⟨rfl⟩; exact hc)

theorem dropWhile_append_stop (h : ∀ d ∈ run, p d) (hc : p c = false) :
    (run ++ c :: cs).dropWhile p = c :: cs :=
  dropWhile_append_ended h (by rintro d ⟨rfl⟩; exact hc)

/-- Blanks are dropped up to the first character that is none. -/
theorem dropBlanks_append {run cs : List Char} {c : Char} (h : ∀ d ∈ run, isBlank d) (hc : isBlank c = false) :
    dropBlanks (run ++ c :: cs) = c :: cs :=
  dropWhile_append_stop h hc

/-- What is dropped of a text are blanks. -/
theorem exists_blanks (cs : List Char) : ∃ gap, (∀ c ∈ gap, isBlank c) ∧ cs = gap ++ dropBlanks cs :=
  ⟨cs.takeWhile isBlank, fun _ => List.mem_takeWhile_imp, List.takeWhile_append_dropWhile.symm⟩

end Run

/-! ### Blanks at the ends -/

section Trim

variable {lead core tail cs : List Char}

/-- No blank stands at either end of a text. -/
def Tight (cs : List Char) : Prop :=
  (∀ c ∈ cs.head?, isBlank c = false) ∧ ∀ c ∈ cs.getLast?, isBlank c = false

theorem dropBlanks_of_tight (h : Tight core) : dropBlanks core = core := by
  cases core with
  | nil => rfl
  | cons c core =>
    rw [dropBlanks, List.dropWhile_cons_of_neg]
    rw [h.1 c rfl]
    exact Bool.false_ne_true

theorem Tight.reverse (h : Tight core) : Tight core.reverse := by
  rw [Tight, List.head?_reverse, List.getLast?_reverse]
  exact ⟨h.2, h.1⟩

/-- Nothing is trimmed of a text without blanks at its ends. -/
theorem trim_of_tight {s : String} (h : Tight s.toList) : trim s = s := by
  rw [trim, trimChars, dropBlanks_of_tight h, dropLastBlanks, dropBlanks_of_tight h.reverse, List.reverse_reverse,
    String.ofList_toList]

/-- What begins and ends with tight texts is tight, whatever stands between them. -/
theorem Tight.append {first last : List Char} (h : Tight first) (hfirst : first ≠ []) (h' : Tight last)
    (hlast : last ≠ []) (middle : List Char) : Tight (first ++ middle ++ last) := by
  constructor
  · intro c hc
    rw [List.append_assoc, List.head?_append_of_ne_nil _ hfirst] at hc
    exact h.1 c hc
  · intro c hc
    rw [List.getLast?_append_of_ne_nil _ hlast] at hc
    exact h'.2 c hc

/-- Blanks at the ends are trimmed, and nothing else is. -/
theorem trimChars_append (hlead : ∀ c ∈ lead, isBlank c) (hcore : Tight core) (htail : ∀ c ∈ tail, isBlank c) :
    trimChars (lead ++ (core ++ tail)) = core := by
  have htail' : ∀ c ∈ tail.reverse, isBlank c := fun c hc => htail c (List.mem_reverse.mp hc)
  have hends : dropLastBlanks (core ++ tail) = core := by
    rw [dropLastBlanks, List.reverse_append, dropBlanks, List.dropWhile_append_of_pos htail', ← dropBlanks,
      dropBlanks_of_tight hcore.reverse, List.reverse_reverse]
  rw [trimChars, dropBlanks, List.dropWhile_append_of_pos hlead, ← dropBlanks]
  cases core with
  | nil =>
    rw [List.nil_append, dropBlanks_eq_nil_iff.mpr htail]
    rfl
  | cons c core =>
    have hstart : dropBlanks (c :: core ++ tail) = c :: core ++ tail := by
      rw [List.cons_append, dropBlanks, List.dropWhile_cons_of_neg]
      rw [hcore.1 c rfl]
      exact Bool.false_ne_true
    rw [hstart, hends]

/-- A text is what is left of it with blanks at the ends. -/
theorem exists_trimChars (cs : List Char) :
    ∃ lead tail, (∀ c ∈ lead, isBlank c) ∧ (∀ c ∈ tail, isBlank c) ∧ Tight (trimChars cs) ∧
      cs = lead ++ (trimChars cs ++ tail) := by
  have hsplit (cs : List Char) : cs = cs.takeWhile isBlank ++ dropBlanks cs := List.takeWhile_append_dropWhile.symm
  have hhead (cs : List Char) : ∀ c ∈ (dropBlanks cs).head?, isBlank c = false := by
    intro c hc
    have hnot := List.head?_dropWhile_not isBlank cs
    rw [← dropBlanks, Option.mem_def.mp hc] at hnot
    simpa using hnot
  have hrest : dropBlanks cs = trimChars cs ++ ((dropBlanks cs).reverse.takeWhile isBlank).reverse := by
    rw [trimChars, dropLastBlanks, ← List.reverse_append, ← hsplit, List.reverse_reverse]
  refine ⟨cs.takeWhile isBlank, ((dropBlanks cs).reverse.takeWhile isBlank).reverse, fun c => List.mem_takeWhile_imp,
    fun c hc => ?_, ⟨fun c hc => ?_, fun c hc => ?_⟩, ?_⟩
  · exact List.mem_takeWhile_imp (List.mem_reverse.mp hc)
  · -- the first character that is left is the first that is no blank
    refine hhead cs c ?_
    rw [hrest]
    exact List.mem_head?_append_of_mem_head? hc
  · rw [trimChars, dropLastBlanks, List.getLast?_reverse] at hc
    exact hhead _ c hc
  · rw [← hrest]
    exact hsplit cs

/-- Blanks around a text are trimmed with those at its ends. -/
theorem trimChars_pad (hlead : ∀ c ∈ lead, isBlank c) (htail : ∀ c ∈ tail, isBlank c) :
    trimChars (lead ++ (cs ++ tail)) = trimChars cs := by
  obtain ⟨first, last, hfirst, hlast, htight, hcs⟩ := exists_trimChars cs
  have hassoc : lead ++ (cs ++ tail) = (lead ++ first) ++ (trimChars cs ++ (last ++ tail)) := by
    conv_lhs => rw [hcs]
    simp
  rw [hassoc]
  exact trimChars_append (List.forall_mem_append.mpr ⟨hlead, hfirst⟩) htight (List.forall_mem_append.mpr ⟨hlast, htail⟩)

/-- What follows a text without blanks at its ends is trimmed at its own end only. -/
theorem exists_trimChars_append (hcore : Tight core) (hne : core ≠ []) (cs : List Char) :
    ∃ kept, kept <+: cs ∧ trimChars (core ++ cs) = core ++ kept := by
  obtain ⟨lead, tail, hlead, htail, -, hcs⟩ := exists_trimChars (core ++ cs)
  have hnone : lead = [] := by
    cases lead with
    | nil => rfl
    | cons c lead =>
      have hfirst : core.head? = some c := by
        rw [← List.head?_append_of_ne_nil core hne, hcs]
        rfl
      have hc := hlead c List.mem_cons_self
      rw [hcore.1 c hfirst] at hc
      cases hc
  rw [hnone, List.nil_append] at hcs
  rcases List.append_eq_append_iff.mp hcs with ⟨kept, htrim, rfl⟩ | ⟨beyond, htrim, rfl⟩
  · exact ⟨kept, List.prefix_append kept tail, htrim⟩
  · -- the last character of the text is no blank, and so not among those that are trimmed
    rcases List.eq_nil_or_concat beyond with rfl | ⟨others, c, rfl⟩
    · exact ⟨[], List.nil_prefix, by simpa using htrim.symm⟩
    · have hlast : core.getLast? = some c := by
        conv_lhs => rw [htrim]
        simp
      have hc := htail c (by simp)
      rw [hcore.2 c hlast] at hc
      cases hc

/-- Only blanks are trimmed to nothing. -/
theorem trimChars_eq_nil_iff : trimChars cs = [] ↔ ∀ c ∈ cs, isBlank c := by
  constructor
  · intro h
    obtain ⟨lead, tail, hlead, htail, -, hcs⟩ := exists_trimChars cs
    rw [h] at hcs
    rw [hcs]
    exact List.forall_mem_append.mpr ⟨hlead, htail⟩
  · intro h
    have hnone : trimChars (cs ++ ([] ++ [])) = [] := trimChars_append h ⟨nofun, nofun⟩ nofun
    rwa [List.append_nil, List.append_nil] at hnone

end Trim

end Orchestration.Text
