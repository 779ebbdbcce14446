import Mathlib.Data.List.TakeWhile
import Orchestration.Planner.Markup
import Orchestration.Proofs.Registry
import Orchestration.Proofs.Scanning

/-!
# Comments in a plan

A comment says why a step is taken and is no part of the plan. That is so wherever it stands outside other comments,
and whatever it says, but for one thing: where the plan ends is settled before comments are dropped, and so a comment
that mentions the end of the plan ends it.

* `Settled` — the texts in which every comment that is started is ended.
* `Settled.dropComments_comment` — a comment behind such a text is dropped, and nothing else is.
* `BodyPoint`, `exists_bodyPoint` — a point in the body of a plan, and that all are of this form.
* `readMarkup_commented` — a comment at such a point changes nothing, or ends the plan.
* `comment_changes_plan` — a comment that mentions the end of the plan loses the steps behind it, and one behind a
  value that looks like the start of another loses the steps before it.
-/

namespace Orchestration.Planner

open Text

/-! ### Comments -/

/-- **Every comment that is started is ended** in a text, with what is behind the text in view. -/
inductive Settled (rest : List Char) : List Char → Prop where
  /-- nothing is started -/
  | nil : Settled rest []
  /-- a character at which no comment starts -/
  | plain {c : Char} {cs : List Char} (unstarted : ¬"<!--".toList <+: c :: (cs ++ rest))
      (settled : Settled rest cs) : Settled rest (c :: cs)
  /-- a comment -/
  | comment {told cs : List Char} (unended : ¬"-->".toList <:+: told) (settled : Settled rest cs) :
      Settled rest ("<!--".toList ++ (told ++ ("-->".toList ++ cs)))

variable {rest inside told cs : List Char} {c : Char}

/-- No comment is recognised where none starts. -/
theorem comment?_eq_none (h : ¬"<!--".toList <+: cs) : comment? cs = none := by
  rw [comment?, isPrefixOf?_eq_none_iff.mpr h]

/-- The end of a comment does not start in what the comment tells. -/
theorem not_prefix_commentEnd (h : ¬"-->".toList <:+: told) {s : List Char} (hs : s <:+ told) (hne : s ≠ [])
    (rest : List Char) : ¬"-->".toList <+: s ++ ("-->".toList ++ rest) := by
  intro hp
  have hmark : "-->".toList = ['-', '-', '>'] := rfl
  rw [hmark] at hp h
  -- with only one or two characters left, a `-` of the end behind them stands where the `>` should
  match s, hs, hne, hp with
  | [a], _, _, hp => simp [List.cons_prefix_cons] at hp
  | [a, b], _, _, hp => simp [List.cons_prefix_cons] at hp
  | a :: b :: d :: s, hs, _, hp =>
    have hstart : ['-', '-', '>'] <+: a :: b :: d :: s := by
      simpa [List.cons_prefix_cons] using hp
    exact h (hstart.isInfix.trans hs.isInfix)

/-- A comment is recognised as a whole. -/
theorem comment?_comment (h : ¬"-->".toList <:+: told) (rest : List Char) :
    comment? ("<!--".toList ++ (told ++ ("-->".toList ++ rest))) = some ((), rest) := by
  have hcut : splitFirst? "-->".toList (told ++ ("-->".toList ++ rest)) = some (told, rest) :=
    splitFirst?_append_mark (by decide) fun s hs hne => not_prefix_commentEnd h hs hne rest
  rw [comment?, isPrefixOf?_append]
  simp only [hcut, Option.map_some]

theorem dropComments_comment (h : ¬"-->".toList <:+: told) (rest : List Char) :
    dropComments ("<!--".toList ++ (told ++ ("-->".toList ++ rest))) = dropComments rest := by
  have hwhole : "<!--".toList ++ (told ++ ("-->".toList ++ rest)) =
      ("<!--".toList ++ (told ++ "-->".toList)) ++ rest := by simp only [List.append_assoc]
  have hfound := comment?_comment h rest
  rw [hwhole] at hfound
  rw [hwhole, dropComments, replaceFound_append_found (by simp) hfound, List.nil_append, dropComments]

theorem dropComments_cons (h : ¬"<!--".toList <+: c :: cs) : dropComments (c :: cs) = c :: dropComments cs :=
  replaceFound_cons_none (comment?_eq_none h)

/-- **Comments are dropped part by part** where the first part is settled. -/
theorem Settled.dropComments_append (h : Settled rest inside) :
    dropComments (inside ++ rest) = dropComments inside ++ dropComments rest := by
  -- the induction is on how the text is settled: character by character, and comment by comment
  induction h with
  | nil => rfl
  | @plain c cs unstarted _ ih =>
    have hfirst : ¬"<!--".toList <+: c :: cs := fun hp => unstarted (hp.trans (List.prefix_append (c :: cs) rest))
    rw [List.cons_append, dropComments_cons unstarted, ih, dropComments_cons hfirst, List.cons_append]
  | @comment told cs unended _ ih =>
    rw [List.append_assoc, List.append_assoc, List.append_assoc, dropComments_comment unended,
      dropComments_comment unended, ih]

/-- A text that is settled in view of one text is settled in view of a comment. -/
theorem Settled.before_comment (h : Settled rest inside) (cs : List Char) :
    Settled ("<!--".toList ++ cs) inside := by
  induction h with
  | nil => exact .nil
  | @plain c cs' unstarted _ ih =>
    -- the start of the next comment has its `<` first, so none starts before and goes on into it
    refine .plain (fun hp => unstarted ?_) ih
    have hmark : "<!--".toList ++ cs = '<' :: ("!--".toList ++ cs) := rfl
    rw [hmark, ← List.cons_append] at hp
    have hstart := prefix_of_prefix_append_cons (by decide) (List.cons_ne_nil c cs') hp
    exact hstart.trans (List.prefix_append (c :: cs') rest)
  | comment unended _ ih => exact .comment unended ih

/-- **A comment behind a settled text is dropped**, and nothing else is. -/
theorem Settled.dropComments_comment (h : Settled rest inside) (htold : ¬"-->".toList <:+: told) :
    dropComments (inside ++ ("<!--".toList ++ (told ++ ("-->".toList ++ rest)))) =
      dropComments (inside ++ rest) := by
  rw [(h.before_comment _).dropComments_append, Planner.dropComments_comment htold, h.dropComments_append]

/-- A text in which no comment starts is settled. -/
theorem settled_of_unstarted (h : ∀ s ∈ inside.tails, s ≠ [] → ¬"<!--".toList <+: s ++ rest) : Settled rest inside := by
  induction inside with
  | nil => exact .nil
  | cons c cs ih =>
    refine .plain (h (c :: cs) (by simp) (List.cons_ne_nil c cs)) (ih fun s hs => h s ?_)
    rw [List.tails_cons]
    exact List.mem_cons_of_mem _ hs

/-! ### The body of a plan -/

variable {gap body after : List Char}

/-- **What is recognised as a plan**: a tag that opens it, with what is behind up to its end, or one without a body. -/
theorem planAt?_eq_some_iff : planAt? cs = some (body, rest) ↔ ∃ gap, (∀ c ∈ gap, isBlank c) ∧
    (cs = "<plan".toList ++ (gap ++ '/' :: '>' :: rest) ∧ body = [] ∨ ∃ inside,
      cs = "<plan".toList ++ (gap ++ '>' :: inside) ∧
        (splitFirst? "</plan>".toList inside).getD (inside, []) = (body, rest)) := by
  constructor
  · intro h
    rw [planAt?] at h
    cases hmark : "<plan".toList.isPrefixOf? cs with
    | none =>
      rw [hmark] at h
      cases h
    | some tail =>
      obtain rfl := List.isPrefixOf?_eq_some_iff_append_eq.mp hmark
      rw [hmark] at h
      obtain ⟨gap, blank, htail⟩ := exists_blanks tail
      refine ⟨gap, blank, ?_⟩
      simp only at h
      split at h
      · next after heq =>
        cases h
        rw [heq] at htail
        exact .inl ⟨congrArg _ htail, rfl⟩
      · next inside heq =>
        rw [heq] at htail
        exact .inr ⟨inside, congrArg _ htail, Option.some.inj h⟩
      · cases h
  · rintro ⟨gap, blank, ⟨rfl, rfl⟩ | ⟨inside, rfl, hcut⟩⟩
    · have hblanks : dropBlanks (gap ++ '/' :: '>' :: rest) = '/' :: '>' :: rest := dropBlanks_append blank (by decide)
      rw [planAt?, isPrefixOf?_append]
      simp only [hblanks]
    · have hblanks : dropBlanks (gap ++ '>' :: inside) = '>' :: inside := dropBlanks_append blank (by decide)
      rw [planAt?, isPrefixOf?_append]
      simp only [hblanks, hcut]

/-- The body of a plan goes to the first text that ends it, or to the end. -/
theorem exists_cut (hbody : ¬"</plan>".toList <:+: body) (hended : after = [] ∨ "</plan>".toList <+: after) :
    ∃ behind, (splitFirst? "</plan>".toList (body ++ after)).getD (body ++ after, []) = (body, behind) := by
  rcases hended with rfl | ⟨behind, rfl⟩
  · rw [List.append_nil, splitFirst?_eq_none_iff.mpr hbody]
    exact ⟨[], rfl⟩
  · have hcut : splitFirst? "</plan>".toList (body ++ ("</plan>".toList ++ behind)) = some (body, behind) := by
      refine splitFirst?_append_mark (by decide) fun s hs hne hp => hbody ?_
      -- the mark has its `<` at the start only, and so it does not reach over the next one
      have hstart : "</plan>".toList <+: s := prefix_of_prefix_append_cons (by decide) hne hp
      exact hstart.isInfix.trans hs.isInfix
    rw [hcut]
    exact ⟨behind, rfl⟩

theorem exists_ended (h : (splitFirst? "</plan>".toList inside).getD (inside, []) = (body, rest)) :
    ∃ after, inside = body ++ after ∧ ¬"</plan>".toList <:+: body ∧ (after = [] ∨ "</plan>".toList <+: after) := by
  cases hcut : splitFirst? "</plan>".toList inside with
  | none =>
    rw [hcut] at h
    cases h
    exact ⟨[], (List.append_nil _).symm, splitFirst?_eq_none_iff.mp hcut, .inl rfl⟩
  | some found =>
    rw [hcut] at h
    cases h
    obtain ⟨rfl, hbody⟩ := splitFirst?_eq_some (by decide) hcut
    exact ⟨_, rfl, hbody, .inr (List.prefix_append _ _)⟩

/-- A tag that opens a plan, or is one with nothing in it. -/
inductive PlanTag : List Char → Prop where
  /-- the tag before a body -/
  | opening {gap : List Char} (blank : ∀ c ∈ gap, isBlank c) : PlanTag ("<plan".toList ++ (gap ++ ['>']))
  /-- the tag of a plan without a body -/
  | empty {gap : List Char} (blank : ∀ c ∈ gap, isBlank c) : PlanTag ("<plan".toList ++ (gap ++ ['/', '>']))

theorem PlanTag.lt_not_mem_tail {tag : List Char} (h : PlanTag tag) : '<' ∉ tag.tail := by
  have hlt {gap : List Char} (blank : ∀ c ∈ gap, isBlank c) : '<' ∉ gap := fun hmem =>
    absurd (blank '<' hmem) (by decide)
  cases h with
  | opening blank => simp [hlt blank]
  | empty blank => simp [hlt blank]

/-- A plan is recognised where there is such a tag. -/
theorem isSome_planAt?_iff : (planAt? cs).isSome ↔ ∃ tag, PlanTag tag ∧ tag <+: cs := by
  constructor
  · intro h
    obtain ⟨⟨body, rest⟩, hfound⟩ := Option.isSome_iff_exists.mp h
    obtain ⟨gap, blank, ⟨rfl, -⟩ | ⟨inside, rfl, -⟩⟩ := planAt?_eq_some_iff.mp hfound
    · exact ⟨_, .empty blank, rest, by simp⟩
    · exact ⟨_, .opening blank, inside, by simp⟩
  · rintro ⟨tag, htag, more, rfl⟩
    refine Option.isSome_iff_exists.mpr ?_
    cases htag with
    | opening blank => exact ⟨(_, _), planAt?_eq_some_iff.mpr ⟨_, blank, .inr ⟨more, by simp, rfl⟩⟩⟩
    | empty blank => exact ⟨([], more), planAt?_eq_some_iff.mpr ⟨_, blank, .inl ⟨by simp, rfl⟩⟩⟩

/-- Where a plan starts, it does with more behind. -/
theorem planAt?_of_append {s : List Char} (h : planAt? (s ++ cs) = none) : planAt? s = none := by
  rw [← Option.not_isSome_iff_eq_none, isSome_planAt?_iff] at h ⊢
  rintro ⟨tag, htag, hp⟩
  exact h ⟨tag, htag, hp.trans (List.prefix_append s cs)⟩

/-- Where no plan starts, none does with another tag behind. -/
theorem planAt?_append_tag {s : List Char} (h : planAt? s = none) (hne : s ≠ []) (cs : List Char) :
    planAt? (s ++ '<' :: cs) = none := by
  rw [← Option.not_isSome_iff_eq_none, isSome_planAt?_iff] at h ⊢
  rintro ⟨tag, htag, hp⟩
  exact h ⟨tag, htag, prefix_of_prefix_append_cons htag.lt_not_mem_tail hne hp⟩

/-- No plan starts before a text without one, not even one that goes on into what follows. -/
theorem declined_planAt?_of_unopened {lead : List Char} (h : planBody? lead = none) (cs : List Char) :
    Declined planAt? lead ('<' :: cs) := fun s hs hne =>
  planAt?_append_tag (recognise_eq_none_of_findAll h s hs hne) hne cs

/-- **The body of the first plan** goes from the tag that opens it to the first text that ends it, or to the end. -/
theorem planBody?_opened {lead : List Char} (hlead : planBody? lead = none)
    (hgap : ∀ c ∈ gap, isBlank c) (hbody : ¬"</plan>".toList <:+: body)
    (hended : after = [] ∨ "</plan>".toList <+: after) :
    planBody? (lead ++ ("<plan".toList ++ (gap ++ '>' :: (body ++ after)))) = some body := by
  obtain ⟨behind, hcut⟩ := exists_cut hbody hended
  have hfound := planAt?_eq_some_iff.mpr ⟨gap, hgap, .inr ⟨_, rfl, hcut⟩⟩
  have hmark : "<plan".toList = '<' :: "plan".toList := rfl
  rw [hmark, List.cons_append] at hfound ⊢
  rw [planBody?, findAll_append_plain (declined_planAt?_of_unopened hlead _), head?_findAll hfound]

/-- The start of a comment parts what stands before it from what the comment tells. -/
theorem not_infix_start (hinside : ¬"</plan>".toList <:+: inside) (hcs : ¬"</plan>".toList <:+: cs) :
    ¬"</plan>".toList <:+: inside ++ ("<!--".toList ++ cs) := by
  intro h
  rcases infix_append_cons (by decide) h with hp | hp
  · exact hinside hp
  · rcases List.infix_cons_iff.mp hp with hp | hp
    · exact absurd (List.cons_prefix_cons.mp (List.cons_prefix_cons.mp hp).2).1 (by decide)
    · refine hcs (infix_cons_of_ne ?_ ?_ (infix_cons_of_ne ?_ ?_ (infix_cons_of_ne ?_ ?_ hp))) <;> decide

/-- The end of a comment parts what the comment tells from what stands behind it. -/
theorem not_infix_end (htold : ¬"</plan>".toList <:+: told) (hcs : ¬"</plan>".toList <:+: cs) :
    ¬"</plan>".toList <:+: told ++ ("-->".toList ++ cs) := by
  intro h
  rcases infix_append_cons (by decide) h with hp | hp
  · exact htold hp
  · refine hcs (infix_cons_of_ne ?_ ?_ (infix_cons_of_ne ?_ ?_ (infix_cons_of_ne ?_ ?_ hp))) <;> decide

/-- **A point in the body of a plan**, the first of a text. -/
structure BodyPoint where
  /-- what stands before the plan -/
  lead : List Char := []
  unopened : planBody? lead = none := by decide +kernel
  /-- the blanks in the tag that opens the plan -/
  gap : List Char := []
  blank : ∀ c ∈ gap, isBlank c := by simp
  /-- the body up to the point -/
  inside : List Char
  /-- the body from the point on -/
  behind : List Char
  unended : ¬"</plan>".toList <:+: inside ++ behind := by decide +kernel
  /-- the end of the plan and what follows it -/
  after : List Char := "</plan>".toList
  ended : after = [] ∨ "</plan>".toList <+: after := by decide +kernel

/-- A comment as it is written. -/
def commentText (told : String) : String := "<!--" ++ told ++ "-->"

namespace BodyPoint

/-- What opens the plan, and what stands before it. -/
def opening (p : BodyPoint) : String := .ofList (p.lead ++ ("<plan".toList ++ (p.gap ++ ['>'])))

/-- The text up to the point. -/
def upTo (p : BodyPoint) : String := p.opening ++ .ofList p.inside

/-- The text from the point on. -/
def onward (p : BodyPoint) : String := .ofList (p.behind ++ p.after)

variable (p : BodyPoint)

/-- The elements of a plan that is opened where this one is. -/
theorem planElements?_opening {text : List Char} (hbody : ¬"</plan>".toList <:+: body)
    (hended : after = [] ∨ "</plan>".toList <+: after) (htext : text = body ++ after) :
    planElements? (p.opening ++ .ofList text) = some (findAll element? (dropComments body)) := by
  have hchars : (p.opening ++ .ofList text).toList =
      p.lead ++ ("<plan".toList ++ (p.gap ++ '>' :: (body ++ after))) := by
    rw [opening, String.toList_append, htext]
    simp only [String.toList_ofList, List.append_assoc, List.singleton_append]
  rw [planElements?, hchars, planBody?_opened p.unopened p.blank hbody hended, Option.map_some]

/-- **Every point in the body of a first plan** is one of these. -/
theorem exists_bodyPoint {text : String} {inside behind : List Char}
    (h : planBody? text.toList = some (inside ++ behind)) (hne : inside ++ behind ≠ []) :
    ∃ p : BodyPoint, p.inside = inside ∧ p.behind = behind ∧ p.upTo ++ p.onward = text := by
  obtain ⟨lead, start, rest, htext, hstart, hlead⟩ := exists_of_head?_findAll h
  obtain ⟨gap, hgap, ⟨-, hempty⟩ | ⟨inside', rfl, hcut⟩⟩ := planAt?_eq_some_iff.mp hstart
  · exact absurd hempty hne
  obtain ⟨after, rfl, hbody, hended⟩ := exists_ended hcut
  -- what is not recognised with the plan behind is not recognised without it
  have hunopened : planBody? lead = none := by
    have hplain : Declined planAt? lead [] := fun s hs hne => by
      rw [List.append_nil]
      exact planAt?_of_append (hlead s hs hne)
    have hnothing := findAll_append_plain hplain
    rw [List.append_nil] at hnothing
    rw [planBody?, hnothing]
    rfl
  refine ⟨⟨lead, hunopened, gap, hgap, inside, behind, hbody, after, hended⟩, rfl, rfl, ?_⟩
  rw [← String.toList_inj, htext]
  simp [upTo, onward, opening, String.toList_append, String.toList_ofList]

theorem planElements?_text :
    planElements? (p.upTo ++ p.onward) = some (findAll element? (dropComments (p.inside ++ p.behind))) := by
  rw [upTo, onward, String.append_assoc, ← String.ofList_append]
  exact p.planElements?_opening p.unended p.ended (List.append_assoc _ _ _).symm

/-- What the body holds on one side of the point does not end the plan. -/
theorem unended_sides : ¬"</plan>".toList <:+: p.inside ∧ ¬"</plan>".toList <:+: p.behind :=
  ⟨fun h => p.unended (h.trans (List.prefix_append _ _).isInfix),
    fun h => p.unended (h.trans (List.suffix_append _ _).isInfix)⟩

/-- The plan with some text and a comment behind it, neither of which mentions its end. -/
theorem planElements?_comment {text : List Char} {told : String} (htext : ¬"</plan>".toList <:+: text)
    (htold : ¬"</plan>".toList <:+: told.toList) :
    planElements? (p.opening ++ .ofList text ++ commentText told ++ p.onward) = some (findAll element? (dropComments
      (text ++ ("<!--".toList ++ (told.toList ++ ("-->".toList ++ p.behind)))))) := by
  have hwhole : p.opening ++ .ofList text ++ commentText told ++ p.onward = p.opening ++ .ofList
      (text ++ ("<!--".toList ++ (told.toList ++ ("-->".toList ++ p.behind))) ++ p.after) := by
    rw [← String.toList_inj]
    simp [onward, commentText, String.toList_append, String.toList_ofList]
  rw [hwhole]
  exact p.planElements?_opening (not_infix_start htext (not_infix_end htold p.unended_sides.2)) p.ended rfl

/-- The text with a comment at the point. -/
def commented (told : String) : String := p.upTo ++ commentText told ++ p.onward

/-- The plan with a comment at the point that does not mention its end. -/
theorem planElements?_commented {told : String} (htold : ¬"</plan>".toList <:+: told.toList) :
    planElements? (p.commented told) = some (findAll element? (dropComments
      (p.inside ++ ("<!--".toList ++ (told.toList ++ ("-->".toList ++ p.behind)))))) :=
  p.planElements?_comment p.unended_sides.1 htold

/-- The plan with a comment at the point that mentions its end: what the comment says from there on is behind it. -/
theorem planElements?_ending {said : String} (more : String) (hsaid : ¬"</plan>".toList <:+: said.toList) :
    planElements? (p.commented (said ++ ("</plan>" ++ more))) =
      some (findAll element? (dropComments (p.inside ++ ("<!--".toList ++ said.toList)))) := by
  have hwhole : p.commented (said ++ ("</plan>" ++ more)) = p.opening ++ .ofList
      (p.inside ++ ("<!--".toList ++ said.toList) ++ ("</plan>".toList ++ (more ++ "-->" ++ p.onward).toList)) := by
    rw [← String.toList_inj]
    simp [commented, upTo, commentText, String.toList_append, String.toList_ofList]
  rw [hwhole]
  exact p.planElements?_opening (not_infix_start p.unended_sides.1 hsaid) (.inr (List.prefix_append _ _)) rfl

/-- The plan that ends in a comment at the point. -/
theorem planElements?_broken {said : String} (hsaid : ¬"</plan>".toList <:+: said.toList) :
    planElements? (p.upTo ++ ("<!--" ++ said)) =
      some (findAll element? (dropComments (p.inside ++ ("<!--".toList ++ said.toList)))) := by
  have hwhole : p.upTo ++ ("<!--" ++ said) = p.opening ++ .ofList (p.inside ++ ("<!--".toList ++ said.toList)) := by
    rw [← String.toList_inj]
    simp [upTo, String.toList_append, String.toList_ofList]
  rw [hwhole]
  exact p.planElements?_opening (not_infix_start p.unended_sides.1 hsaid) (.inl rfl) (List.append_nil _).symm

end BodyPoint

/-! ### Comments at a point -/

/-- A plan is read by its elements. -/
theorem readMarkup_congr {text other : String} {elements : List Element} (h : planElements? text = some elements)
    (hother : planElements? other = some elements) (goal : String) (k : Kernel) (allowMissing : Bool) :
    readMarkup text goal k allowMissing = readMarkup other goal k allowMissing := by
  rw [readMarkup, readMarkup, h, hother]

/-- **A comment at the point changes nothing**, whichever kernel the plan is for. -/
def Transparent (p : BodyPoint) (told : String) : Prop :=
  ∀ goal k allowMissing,
    readMarkup (p.commented told) goal k allowMissing = readMarkup (p.upTo ++ p.onward) goal k allowMissing

/-- **A comment changes nothing at a point outside comments** if it does not mention the end of the plan. One that
does ends the plan there. And behind a comment that is not ended, be it only the value of an attribute that looks
like one, all from that one on is read as one comment. -/
theorem readMarkup_commented (p : BodyPoint) (told : String) (htold : ¬"-->".toList <:+: told.toList) :
    (¬"</plan>".toList <:+: told.toList → Settled p.behind p.inside → Transparent p told) ∧
    (∀ said more : String, told = said ++ ("</plan>" ++ more) → ¬"</plan>".toList <:+: said.toList →
      ∀ goal k allowMissing, readMarkup (p.commented told) goal k allowMissing =
        readMarkup (p.upTo ++ ("<!--" ++ said)) goal k allowMissing) ∧
    (¬"</plan>".toList <:+: told.toList → ∀ before opened, p.inside = before ++ ("<!--".toList ++ opened) →
      Settled "<!--".toList before → ¬"-->".toList <:+: opened ++ ("<!--".toList ++ told.toList) →
        ∀ goal k allowMissing, readMarkup (p.commented told) goal k allowMissing =
          readMarkup (p.opening ++ .ofList before ++ commentText "" ++ p.onward) goal k allowMissing) := by
  refine ⟨fun hplan hsettled => ?_, ?_, fun hplan before opened hinside hsettled hopened => ?_⟩
  · refine readMarkup_congr (p.planElements?_commented hplan) ?_
    rw [hsettled.dropComments_comment htold, p.planElements?_text]
  · rintro said more rfl hsaid
    exact readMarkup_congr (p.planElements?_ending more hsaid) (p.planElements?_broken hsaid)
  · have hbefore : ¬"</plan>".toList <:+: before := fun h =>
      p.unended_sides.1 (h.trans ⟨[], _, by rw [hinside, List.nil_append]⟩)
    refine readMarkup_congr (p.planElements?_commented hplan) ?_
    rw [p.planElements?_comment hbefore (by decide)]
    -- from the comment that is not ended to the end of the next one is one comment
    have hwhole : p.inside ++ ("<!--".toList ++ (told.toList ++ ("-->".toList ++ p.behind))) =
        before ++ ("<!--".toList ++ ((opened ++ ("<!--".toList ++ told.toList)) ++ ("-->".toList ++ p.behind))) := by
      rw [hinside]
      simp only [List.append_assoc]
    rw [hwhole, (hsettled.before_comment _).dropComments_append, (hsettled.before_comment _).dropComments_append,
      dropComments_comment hopened, dropComments_comment (by decide)]

/-! ### Comments that are noticed -/

/-- A kernel that can tell jokes. -/
def jester : Kernel := Kernel.assembled [.register "" (.echo "Joke")]

/-- The steps of the plan in a text. -/
def stepsRead (text : String) : Option (List PlanStep) := (readMarkup text "laugh" jester false).toOption.map (·.steps)

theorem not_transparent {p : BodyPoint} {told : String}
    (h : stepsRead (p.commented told) ≠ stepsRead (p.upTo ++ p.onward)) : ¬Transparent p told := fun ht => by
  rw [stepsRead, ht, stepsRead] at h
  exact h rfl

/-- Between two jokes, with a comment before the first. -/
def betweenJokes : BodyPoint where
  lead := "<plan: ".toList
  inside := "<!-- one --><function.Joke/>".toList
  behind := "<function.Joke/>".toList

/-- Behind a joke about comments. -/
def behindQuote : BodyPoint where
  inside := "<function.Joke input=\"<!--\"/>".toList
  behind := "<function.Joke/>".toList

/-- **A comment that mentions the end of the plan loses the steps behind it**, and one behind a value that looks like
the start of another loses the steps before it. -/
theorem comment_changes_plan :
    (¬"-->".toList <:+: " before the </plan> ".toList ∧ ¬Transparent betweenJokes " before the </plan> ") ∧
    (¬"-->".toList <:+: " next ".toList ∧ ¬Transparent behindQuote " next ") := by
  refine ⟨⟨by decide, not_transparent ?_⟩, by decide, not_transparent ?_⟩
  · decide +kernel
  · decide +kernel

theorem settled_betweenJokes : Settled betweenJokes.behind betweenJokes.inside := by
  have hone : Settled betweenJokes.behind
      ("<!--".toList ++ (" one ".toList ++ ("-->".toList ++ "<function.Joke/>".toList))) :=
    .comment (by decide) (settled_of_unstarted (by decide))
  exact hone

/-- A comment may hold a step, a quote and the start of another comment. -/
theorem readMarkup_commented_jokes :
    let told := " not <function.Joke/>: '<!-- <plan> "
    let quoting := "<function.Joke input=\"".toList
    (¬"-->".toList <:+: told.toList ∧ ¬"</plan>".toList <:+: told.toList ∧
      Settled betweenJokes.behind betweenJokes.inside ∧ Transparent betweenJokes told) ∧
    readMarkup (betweenJokes.commented " before the </plan> ") "laugh" jester false =
      readMarkup (betweenJokes.upTo ++ ("<!--" ++ " before the ")) "laugh" jester false ∧
    Settled "<!--".toList quoting ∧
      readMarkup (behindQuote.commented " next ") "laugh" jester false =
        readMarkup (behindQuote.opening ++ .ofList quoting ++ commentText "" ++ behindQuote.onward) "laugh" jester
          false := by
  intro told quoting
  have htold : ¬"-->".toList <:+: told.toList := by decide
  have hplan : ¬"</plan>".toList <:+: told.toList := by decide
  have hquoting : Settled "<!--".toList quoting := settled_of_unstarted (by decide)
  have hread := (readMarkup_commented betweenJokes told htold).1 hplan settled_betweenJokes
  have hending := (readMarkup_commented betweenJokes " before the </plan> " (by decide)).2.1 " before the " " "
    (by decide) (by decide) "laugh" jester false
  have hquoted := (readMarkup_commented behindQuote " next " (by decide)).2.2 (by decide) quoting "\"/>".toList
    (by decide) hquoting (by decide) "laugh" jester false
  exact ⟨⟨htold, hplan, settled_betweenJokes, hread⟩, hending, hquoting, hquoted⟩

end Orchestration.Planner
