import Mathlib.Data.List.TakeWhile
import Orchestration.Proofs.Scanning
import Orchestration.Stepwise.Step

/-!
# The thought before an action

A thought is read line by line, up to the line of an action. Its lines are put together again with line feeds, so that a
carriage return before a line feed is lost; all else of it is kept, blanks at its ends apart.

* `Text.splitOn_eq`, `Text.lines_induction` — the lines of a text, and induction on them.
* `Text.feeds` — a text with line feeds only.
* `Text.trimChars_feeds_iff` — the texts that are kept by that.
* `Step.thoughtOf_written` — what is read of a thought with an action behind it.
-/

namespace Orchestration

namespace Text

variable {mark cs line rest lead core tail part first later : List Char} {c : Char}

/-! ### Lines -/

theorem splitOn_eq (c : Char) (cs : List Char) : splitOn c cs = cs.splitOn c := by
  induction cs with
  | nil => rfl
  | cons d cs ih =>
    rw [splitOn, ih, List.splitOn_cons_eq_if_modifyHead]
    by_cases hd : d = c
    · rw [if_pos hd, if_pos (by simpa using hd)]
    · rw [if_neg hd, if_neg (by simpa using hd)]
      obtain ⟨first, others, hsplit⟩ := List.exists_cons_of_ne_nil (List.splitOn_ne_nil c cs)
      rw [hsplit]
      rfl

/-- **Induction on the lines of a text**: one without a line feed, and one before a line feed and more lines. -/
theorem lines_induction {motive : List Char → Prop} (last : ∀ line, '\n' ∉ line → motive line)
    (next : ∀ line rest, '\n' ∉ line → motive rest → motive (line ++ '\n' :: rest)) (cs : List Char) : motive cs := by
  induction hlength : cs.length using Nat.strong_induction_on generalizing cs with
  | _ n ih =>
    by_cases hfeed : '\n' ∈ cs
    · obtain ⟨line, rest, rfl, hline⟩ := List.eq_append_cons_of_mem hfeed
      exact next line rest hline (ih rest.length (by simp at hlength; omega) rest rfl)
    · exact last cs hfeed

theorem infix_of_mem_splitOn (h : line ∈ cs.splitOn '\n') : line <:+: cs := by
  induction cs using lines_induction with
  | last cs hcs =>
    rw [List.splitOn_eq_singleton hcs, List.mem_singleton] at h
    rw [h]
  | next first rest hfirst ih =>
    rw [List.splitOn_append_cons_self_of_not_mem hfirst] at h
    rcases List.mem_cons.mp h with rfl | hrest
    · exact (List.prefix_append _ _).isInfix
    · exact (ih hrest).trans ((List.suffix_cons _ _).trans (List.suffix_append _ _)).isInfix

theorem dropReturn_prefix_line (line : List Char) : dropReturn line <+: line := by
  rw [dropReturn]
  split
  · exact List.dropLast_prefix line
  · exact List.prefix_rfl

/-- The lines before a line feed are all the parts that it ends. -/
theorem lineList_append_cons (cs rest : List Char) :
    lineList (cs ++ '\n' :: rest) = (cs.splitOn '\n').map dropReturn ++ lineList rest := by
  have hne := List.splitOn_ne_nil '\n' rest
  simp only [lineList, splitOn_eq, List.splitOn_append_cons_self, List.dropLast_append_of_ne_nil hne,
    List.map_append, List.getLast?_append_of_ne_nil _ hne, List.append_assoc]

/-- A mark without line breaks at the start of a text starts its first line. -/
theorem exists_lineList_append (hfeed : '\n' ∉ mark) (hreturn : '\r' ∉ mark) (hne : mark ≠ []) (rest : List Char) :
    ∃ line others, lineList (mark ++ rest) = (mark ++ line) :: others := by
  -- without the carriage return at its end, a line still has the mark
  have hkept : ∀ line, ∃ line', dropReturn (mark ++ line) = mark ++ line' := by
    intro line
    rw [dropReturn]
    split
    · next hlast =>
      have hline : line ≠ [] := by
        rintro rfl
        rw [List.append_nil] at hlast
        exact hreturn (List.mem_of_getLast? hlast)
      exact ⟨line.dropLast, List.dropLast_append_of_ne_nil hline⟩
    · exact ⟨line, rfl⟩
  by_cases hrest : '\n' ∈ rest
  · obtain ⟨line, more, rfl, hline⟩ := List.eq_append_cons_of_mem hrest
    have hfirst : '\n' ∉ mark ++ line := by simp [hfeed, hline]
    obtain ⟨line', hline'⟩ := hkept line
    refine ⟨line', lineList more, ?_⟩
    rw [← List.append_assoc, lineList_append_cons, List.splitOn_eq_singleton hfirst, List.map_singleton, hline',
      List.singleton_append]
  · have honly : '\n' ∉ mark ++ rest := by simp [hfeed, hrest]
    refine ⟨rest, [], ?_⟩
    simp [lineList, splitOn_eq, List.splitOn_eq_singleton honly, hne]

/-! ### Line feeds only -/

/-- A text without the carriage returns before its line feeds. -/
def feeds : List Char → List Char
  | [] => []
  | c :: cs => if c = '\r' ∧ cs.head? = some '\n' then feeds cs else c :: feeds cs

theorem feeds_cons_of_not (h : ¬(c = '\r' ∧ cs.head? = some '\n')) : feeds (c :: cs) = c :: feeds cs := by
  rw [feeds, if_neg h]

theorem feeds_sublist (cs : List Char) : (feeds cs).Sublist cs := by
  induction cs with
  | nil => exact .slnil
  | cons c cs ih =>
    rw [feeds]
    split
    · exact ih.cons c
    · exact ih.cons_cons c

/-- Text by text, but for a carriage return at the end of the first and a line feed at the start of the second. -/
theorem feeds_append (h : first.getLast? ≠ some '\r' ∨ later.head? ≠ some '\n') :
    feeds (first ++ later) = feeds first ++ feeds later := by
  induction first with
  | nil => rfl
  | cons c first ih =>
    cases first with
    | nil =>
      have hnot : ¬(c = '\r' ∧ later.head? = some '\n') := by
        rintro ⟨rfl, hhead⟩
        exact h.elim (fun hlast => hlast rfl) (fun hnot => hnot hhead)
      rw [List.singleton_append, feeds_cons_of_not hnot, feeds_cons_of_not (by simp)]
      rfl
    | cons d first =>
      rw [List.getLast?_cons_cons] at h
      have hsame : (d :: first ++ later).head? = (d :: first).head? := rfl
      rw [List.cons_append, feeds, feeds, hsame, ih h]
      split
      · rfl
      · rw [List.cons_append]

/-- **What is kept as it is**: a text without a carriage return before a line feed. -/
theorem feeds_eq_self_iff : feeds cs = cs ↔ ¬['\r', '\n'] <:+: cs := by
  induction cs with
  | nil => simp [feeds]
  | cons c cs ih =>
    have hprefix : ['\r', '\n'] <+: c :: cs ↔ c = '\r' ∧ cs.head? = some '\n' := by
      cases cs <;> simp [List.cons_prefix_cons, eq_comm]
    rw [List.infix_cons_iff, hprefix]
    by_cases hpair : c = '\r' ∧ cs.head? = some '\n'
    · -- a character is lost
      have hlength := (feeds_sublist cs).length_le
      rw [feeds, if_pos hpair]
      refine iff_of_false (fun h => ?_) (by simp [hpair])
      rw [h, List.length_cons] at hlength
      omega
    · rw [feeds_cons_of_not hpair, List.cons.injEq, ih]
      simp [hpair]

theorem feeds_line_end (h : '\n' ∉ line) : feeds line = line :=
  feeds_eq_self_iff.mpr fun hpair => h (hpair.subset (by simp))

/-- Before a line feed, a line loses the carriage return at its end. -/
theorem feeds_line (h : '\n' ∉ line) (rest : List Char) :
    feeds (line ++ '\n' :: rest) = dropReturn line ++ '\n' :: feeds rest := by
  have hfeed : feeds ('\n' :: rest) = '\n' :: feeds rest := feeds_cons_of_not (by simp)
  rw [dropReturn]
  split
  · next hlast =>
    have hline := List.dropLast_append_getLast? _ hlast
    have hinit : '\n' ∉ line.dropLast := fun hmem => h (List.dropLast_subset line hmem)
    have hreturn : feeds ('\r' :: '\n' :: rest) = '\n' :: feeds rest := by
      rw [feeds, if_pos ⟨rfl, rfl⟩, hfeed]
    conv_lhs => rw [← hline]
    rw [List.append_assoc, List.singleton_append, feeds_append (.inr (by simp)), feeds_line_end hinit, hreturn]
  · next hlast => rw [feeds_append (.inl hlast), feeds_line_end h, hfeed]

/-- **The lines of a text put together again** are the text with line feeds only. -/
theorem intercalate_lines (cs : List Char) :
    ['\n'].intercalate ((cs.splitOn '\n').map dropReturn) ++ ['\n'] = feeds (cs ++ ['\n']) := by
  induction cs using lines_induction with
  | last line hline =>
    rw [List.splitOn_eq_singleton hline, feeds_line hline]
    simp [feeds]
  | next line rest hline ih =>
    obtain ⟨first, others, hrest⟩ := List.exists_cons_of_ne_nil (List.splitOn_ne_nil '\n' rest)
    have hassoc : line ++ '\n' :: rest ++ ['\n'] = line ++ '\n' :: (rest ++ ['\n']) := by simp
    rw [hrest, List.map_cons] at ih
    rw [List.splitOn_append_cons_self_of_not_mem hline, hrest, List.map_cons, List.map_cons,
      List.intercalate_cons_cons, List.append_assoc, List.append_assoc, ih, List.singleton_append, hassoc,
      feeds_line hline]

/-- A mark without line feeds is not made by taking carriage returns out. -/
theorem prefix_of_prefix_feeds (hmark : '\n' ∉ mark) (h : mark <+: feeds cs) : mark <+: cs := by
  induction cs generalizing mark with
  | nil => exact h
  | cons c cs ih =>
    cases mark with
    | nil => exact List.nil_prefix
    | cons m mark =>
      rw [feeds] at h
      split at h
      · next hpair =>
        -- it would start with the line feed
        obtain ⟨cs, rfl⟩ := List.head?_eq_some_iff.mp hpair.2
        rw [feeds_cons_of_not (by simp), List.cons_prefix_cons] at h
        exact absurd (by simp [h.1]) hmark
      · obtain ⟨rfl, hrest⟩ := List.cons_prefix_cons.mp h
        exact List.cons_prefix_cons.mpr ⟨rfl, ih (fun hmem => hmark (List.mem_cons_of_mem m hmem)) hrest⟩

theorem infix_of_infix_feeds (hmark : '\n' ∉ mark) (h : mark <:+: feeds cs) : mark <:+: cs := by
  induction cs with
  | nil => exact h
  | cons c cs ih =>
    by_cases hpair : c = '\r' ∧ cs.head? = some '\n'
    · rw [feeds, if_pos hpair] at h
      exact List.infix_cons (ih h)
    · have hcons := feeds_cons_of_not hpair
      rw [hcons, List.infix_cons_iff, ← hcons] at h
      rcases h with hp | hi
      · exact (prefix_of_prefix_feeds hmark hp).isInfix
      · exact List.infix_cons (ih hi)

/-- No blank gets to an end of a text by taking carriage returns out. -/
theorem Tight.feeds (h : Tight core) : Tight (feeds core) := by
  refine ⟨fun c hc => ?_, fun c hc => ?_⟩
  · cases core with
    | nil => cases hc
    | cons d core =>
      have hd : isBlank d = false := h.1 d rfl
      have hnot : ¬(d = '\r' ∧ core.head? = some '\n') := by
        rintro ⟨rfl, -⟩
        exact absurd hd (by decide)
      rw [feeds_cons_of_not hnot] at hc
      obtain rfl := Option.some.inj hc
      exact hd
  · rcases List.eq_nil_or_concat core with rfl | ⟨init, d, rfl⟩
    · cases hc
    · have hd : isBlank d = false := h.2 d (by simp)
      have hend : ([d] : List Char).head? ≠ some '\n' := by
        rintro heq
        obtain rfl := Option.some.inj heq
        exact absurd hd (by decide)
      rw [List.concat_eq_append, feeds_append (.inr hend)] at hc
      obtain rfl : d = c := by simpa [Text.feeds] using hc
      exact hd

/-- **A thought is kept** in line feeds only, blanks at its ends apart, if no carriage return stands before a line feed
between them. -/
theorem trimChars_feeds_iff : trimChars (feeds (cs ++ ['\n'])) = trimChars cs ↔ ¬['\r', '\n'] <:+: trimChars cs := by
  obtain ⟨lead, tail, hlead, htail, hcore, hcs⟩ := exists_trimChars cs
  have hends : ∀ c ∈ tail ++ ['\n'], isBlank c := by
    refine List.forall_mem_append.mpr ⟨htail, List.forall_mem_singleton.mpr ?_⟩
    decide
  have hblank {blanks : List Char} (h : ∀ c ∈ blanks, isBlank c) : ∀ c ∈ feeds blanks, isBlank c :=
    fun c hc => h c ((feeds_sublist blanks).subset hc)
  generalize trimChars cs = core at hcore hcs ⊢
  rw [← feeds_eq_self_iff]
  suffices h : trimChars (feeds (cs ++ ['\n'])) = feeds core by rw [h]
  rw [hcs, List.append_assoc, List.append_assoc]
  by_cases hnil : core = []
  · rw [hnil, List.nil_append]
    exact trimChars_eq_nil_iff.mpr (hblank (List.forall_mem_append.mpr ⟨hlead, hends⟩))
  · -- neither a line feed at the start nor a carriage return at the end of what is not blank
    have hfirst : (core ++ (tail ++ ['\n'])).head? ≠ some '\n' := by
      rw [List.head?_append_of_ne_nil _ hnil]
      exact fun heq => absurd (hcore.1 _ heq) (by decide)
    have hlast : core.getLast? ≠ some '\r' := fun heq => absurd (hcore.2 _ heq) (by decide)
    rw [feeds_append (.inr hfirst), feeds_append (.inl hlast)]
    exact trimChars_append (hblank hlead) hcore.feeds (hblank hends)

/-- A mark at the start of a text is taken out, where there is no other. -/
theorem replaceAll_mark {m : Char} {ms : List Char} (h : ¬m :: ms <:+: rest) :
    replaceAll (.ofList (m :: ms)) "" (.ofList (m :: ms ++ rest)) = .ofList rest := by
  have hfound : ((m :: ms).isPrefixOf? (m :: ms ++ rest)).map (((), ·)) = some ((), rest) := by
    rw [isPrefixOf?_append, Option.map_some]
  have hplain : Declined (fun cs => ((m :: ms).isPrefixOf? cs).map (((), ·))) rest [] := by
    intro s hs _
    have hnone : (m :: ms).isPrefixOf? s = none :=
      isPrefixOf?_eq_none_iff.mpr fun hp => h (hp.isInfix.trans hs.isInfix)
    rw [List.append_nil]
    simp only [hnone, Option.map_none]
  have hrest : replaceFound (fun cs => ((m :: ms).isPrefixOf? cs).map (((), ·))) (fun _ => "".toList) (rest ++ []) =
      rest ++ [] := replaceFound_append_plain hplain
  rw [List.append_nil] at hrest
  simp only [replaceAll, String.toList_ofList]
  rw [replaceFound_append_found (List.cons_ne_nil m ms) hfound, hrest]
  rfl

end Text

namespace Step

open Text

/-! ### Thoughts that are written -/

variable {thought : List Char}

/-- Between the mark of a thought and the line of an action, no line starts with an action. -/
theorem thoughtLines_written (haction : ¬actionMark.toList <:+: thought) (behind : List Char) :
    let lines := lineList (thoughtMark.toList ++ ' ' :: thought ++ '\n' :: (actionMark.toList ++ behind))
    thoughtLines lines = ((thoughtMark.toList ++ ' ' :: thought).splitOn '\n').map dropReturn ∧
      (thoughtLines lines).length < lines.length := by
  intro lines
  obtain ⟨line, others, hbehind⟩ : ∃ line others,
      lineList (actionMark.toList ++ behind) = (actionMark.toList ++ line) :: others :=
    exists_lineList_append (by decide) (by decide) (by decide) behind
  have hlines : lines =
      ((thoughtMark.toList ++ ' ' :: thought).splitOn '\n').map dropReturn ++ (actionMark.toList ++ line) :: others := by
    rw [← hbehind]
    exact lineList_append_cons _ _
  have hmark : ¬actionMark.toList <:+: thoughtMark.toList ++ ' ' :: thought := by
    intro h
    rcases infix_append_cons (by decide) h with h | h
    · exact absurd h (by decide)
    · exact haction (infix_cons_of_ne (by decide) (by decide) h)
  have hkept : ∀ l ∈ ((thoughtMark.toList ++ ' ' :: thought).splitOn '\n').map dropReturn,
      (!actionMark.toList.isPrefixOf (dropBlanks l)) = true := by
    intro l hl
    obtain ⟨part, hpart, rfl⟩ := List.mem_map.mp hl
    rw [Bool.not_eq_true', Bool.eq_false_iff, ne_eq, List.isPrefixOf_iff_prefix]
    intro hp
    -- the mark at the start of the line stands in the text
    have hline : dropBlanks (dropReturn part) <:+: part :=
      (List.dropWhile_suffix _).isInfix.trans (dropReturn_prefix_line part).isInfix
    exact hmark (hp.isInfix.trans (hline.trans (infix_of_mem_splitOn hpart)))
  have hstop : (!actionMark.toList.isPrefixOf (dropBlanks (actionMark.toList ++ line))) = false := by
    rw [Bool.not_eq_false', List.isPrefixOf_iff_prefix]
    exact List.prefix_append _ _
  have hbefore : thoughtLines lines = ((thoughtMark.toList ++ ' ' :: thought).splitOn '\n').map dropReturn := by
    rw [thoughtLines, hlines]
    exact takeWhile_append_stop hkept hstop
  refine ⟨hbefore, ?_⟩
  rw [hbefore, hlines]
  simp

/-- **A thought before an action** is read with line feeds only and without the blanks at its ends. -/
theorem thoughtOf_written (hthought : ¬thoughtMark.toList <:+: thought) (haction : ¬actionMark.toList <:+: thought)
    (behind : List Char) :
    thoughtOf (.ofList (thoughtMark.toList ++ ' ' :: thought ++ '\n' :: (actionMark.toList ++ behind))) =
      .ofList (trimChars (feeds (thought ++ ['\n']))) := by
  obtain ⟨hlines, hlength⟩ := thoughtLines_written haction behind
  -- the lines before the action put together: the mark, and the thought with line feeds only
  let kept := ['\n'].intercalate ((thought.splitOn '\n').map dropReturn)
  have hkept : kept ++ ['\n'] = feeds (thought ++ ['\n']) := intercalate_lines thought
  have htext : ['\n'].intercalate (((thoughtMark.toList ++ ' ' :: thought).splitOn '\n').map dropReturn) =
      thoughtMark.toList ++ ' ' :: kept := by
    have hstart : thoughtMark.toList ++ ' ' :: thought ++ ['\n'] =
        (thoughtMark.toList ++ [' ']) ++ (thought ++ ['\n']) := by simp
    suffices h : ['\n'].intercalate (((thoughtMark.toList ++ ' ' :: thought).splitOn '\n').map dropReturn) ++ ['\n'] =
        thoughtMark.toList ++ ' ' :: kept ++ ['\n'] from List.append_cancel_right h
    rw [intercalate_lines, hstart, feeds_append (.inl (by decide)), feeds_line_end (by decide), ← hkept]
    simp
  have hmark : ¬thoughtMark.toList <:+: ' ' :: kept := by
    intro h
    have hinfix := (infix_cons_of_ne (by decide) (by decide) h).trans (List.prefix_append kept ['\n']).isInfix
    rw [hkept] at hinfix
    rcases infix_append_cons (by decide) (infix_of_infix_feeds (by decide) hinfix) with h | h
    · exact hthought h
    · exact absurd h (by decide)
  have hjoin : "\n".intercalate ((((thoughtMark.toList ++ ' ' :: thought).splitOn '\n').map dropReturn).map .ofList) =
      .ofList (thoughtMark.toList ++ ' ' :: kept) := by
    rw [← String.toList_inj, String.toList_intercalate, List.map_map, String.toList_ofList, ← htext]
    simp [Function.comp_def, String.toList_ofList]
  have htake : replaceAll thoughtMark "" (.ofList (thoughtMark.toList ++ ' ' :: kept)) = .ofList (' ' :: kept) :=
    replaceAll_mark hmark
  have htrim : trimChars (' ' :: kept) = trimChars (kept ++ ['\n']) := by
    have hblank : ∀ c ∈ [' '], isBlank c = true := List.forall_mem_singleton.mpr (by decide)
    have hfeed : ∀ c ∈ ['\n'], isBlank c = true := List.forall_mem_singleton.mpr (by decide)
    have hleft : trimChars ([' '] ++ (kept ++ [])) = trimChars kept := trimChars_pad hblank nofun
    have hright : trimChars ([] ++ (kept ++ ['\n'])) = trimChars kept := trimChars_pad nofun hfeed
    rw [List.append_nil] at hleft
    exact hleft.trans hright.symm
  rw [thoughtOf, String.toList_ofList]
  simp only [if_pos hlength]
  rw [hlines, hjoin, htake, trim, String.toList_ofList, htrim, hkept]

end Step

end Orchestration
