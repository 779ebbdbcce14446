import Mathlib.Data.List.TakeWhile
import Orchestration.Proofs.PlanComments
import Orchestration.Proofs.PlanReading
import Orchestration.Proofs.WrittenMarkup

/-!
# The tags that a plan opens

A plan is read by looking for elements, and what is none is passed over. So a tag that was meant as a step and is not
well formed is no failure: it is missing from the plan. To say what is missing, tags are counted here without reading
them: a tag is opened where it starts, unless that is in the value of an attribute of another.

* `Place.next`, `openedTags`, `functionTags` — the tags that a text opens, well formed or not.
* `past_element` — a tag that can be read opens no other.
* `findAll_eq_filterMap_opened` — what is found are the opened tags, as far as they can be read.
* `readMarkup_functionTags` — the steps of a plan are the tags that call functions, if all can be read.
* `readMarkup_loses_tags` — one that cannot is lost without a word.
-/

namespace Orchestration.Planner

open Text

/-! ### Where tags start -/

/-- Whether a tag starts here. -/
def startsTag : List Char → Bool
  | '<' :: c :: _ => startsElement c
  | _ => false

/-- Where a character stands. -/
inductive Place where
  /-- in the text between tags -/
  | text
  /-- in a tag that starts so, with that many characters of an attribute still to come -/
  | tag (t : List Char) (left : Nat)

namespace Place

/-- The tag in an attribute of which the character stands. -/
def holder : Place → Option (List Char)
  | tag t (_ + 1) => some t
  | _ => none

/-- The place of the next character: a tag is left behind its `>`, or for a tag that starts in it, but an attribute is
passed as a whole. -/
def next : Place → Char → List Char → Place
  | tag t (left + 1), _, _ => tag t left
  | text, c, cs => if startsTag (c :: cs) then tag (c :: cs) 0 else text
  | tag t 0, c, cs =>
    if startsTag (c :: cs) then tag (c :: cs) 0
    else if c = '>' then text
    else
      match attribute? (c :: cs) with
      | some (_, rest) => tag t (cs.length - rest.length)
      | none => tag t 0

end Place

/-- A start of a tag. -/
structure TagStart where
  /-- the text from there on -/
  onward : List Char
  /-- the tag in an attribute of which it stands, if it does -/
  holder : Option (List Char)

/-- The starts of tags in what is left of a text. -/
def startsFrom : Place → List Char → List TagStart
  | _, [] => []
  | place, c :: cs =>
    let later := startsFrom (place.next c cs) cs
    if startsTag (c :: cs) then ⟨c :: cs, place.holder⟩ :: later else later

/-- The starts of tags in a text, in attributes too. -/
def tagStarts (cs : List Char) : List TagStart := startsFrom .text cs

/-- The tags among some that are opened: those that stand in no attribute. -/
def opened (starts : List TagStart) : List (List Char) := (starts.filter (·.holder.isNone)).map (·.onward)

theorem opened_cons {holder : Option (List Char)} (h : holder = none) (t : List Char) (later : List TagStart) :
    opened (⟨t, holder⟩ :: later) = t :: opened later := by
  rw [h]
  rfl

/-- **The tags that a text opens**, each with the text from its start on. -/
def openedTags (cs : List Char) : List (List Char) := opened (tagStarts cs)

/-- The tags that a text opens to call a function. -/
def functionTags (cs : List Char) : List (List Char) :=
  (openedTags cs).filter fun t => ("<" ++ functionMark).toList.isPrefixOf t

/-- **A tag is readable** if it is an element, all its attributes read. -/
def IsReadable (t : List Char) : Prop := (element? t).isSome

instance : DecidablePred IsReadable := fun t => inferInstanceAs (Decidable (element? t).isSome)

/-- Tags as they are written are readable. -/
theorem Tag.isReadable (t : Tag) (rest : List Char) : IsReadable ('<' :: t.inner ++ rest) := by
  rw [IsReadable, t.element?_text, Option.isSome_some]

variable {t cs rest : List Char} {c : Char} {place : Place} {starts later : List TagStart}

theorem startsFrom_cons_of_starts (h : startsTag (c :: cs)) (place : Place) :
    startsFrom place (c :: cs) = ⟨c :: cs, place.holder⟩ :: startsFrom (place.next c cs) cs := by
  rw [startsFrom, if_pos h]

theorem startsFrom_cons (h : startsTag (c :: cs) = false) (place : Place) :
    startsFrom place (c :: cs) = startsFrom (place.next c cs) cs := by
  rw [startsFrom, if_neg (by simp [h])]

theorem startsTag_of_ne (h : c ≠ '<') (cs : List Char) : startsTag (c :: cs) = false := by
  rw [startsTag]
  rintro d ds he
  exact h (List.cons.inj he).1

/-- **What is recognised as an element**: a name, attributes and the end of a tag. -/
theorem element?_eq_some {e : Element} (h : element? cs = some (e, rest)) :
    ∃ d ds closing, cs = '<' :: d :: ds ∧ startsElement d ∧ e.name = .ofList (d :: ds.takeWhile isElementChar) ∧
      attributes (ds.dropWhile isElementChar).length (ds.dropWhile isElementChar) = (e.attributes, closing) ∧
      tagEnd? closing = some rest := by
  unfold element? at h
  split at h
  · next d ds =>
    cases hd : startsElement d with
    | false =>
      rw [hd] at h
      cases h
    | true =>
      rw [hd] at h
      obtain ⟨rest', hend, hfound⟩ := Option.map_eq_some_iff.mp h
      cases hfound
      exact ⟨d, ds, _, rfl, hd, rfl, rfl, hend⟩
  · cases h

/-- An element is recognised only where a tag starts. -/
theorem element?_eq_none (h : startsTag cs = false) : element? cs = none :=
  Option.eq_none_iff_forall_ne_some.mpr fun ⟨e, rest⟩ hfound => by
    obtain ⟨d, ds, -, rfl, hd, -⟩ := element?_eq_some hfound
    rw [startsTag, hd] at h
    cases h

/-! ### Readable tags -/

/-- What is left of some starts past a tag, the others standing in its attributes. -/
def Past (t : List Char) (starts later : List TagStart) : Prop :=
  ∃ held, (∀ o ∈ held, o.holder = some t) ∧ starts = held ++ later

theorem Past.refl (t : List Char) (starts : List TagStart) : Past t starts starts := ⟨[], nofun, rfl⟩

theorem Past.trans {latest : List TagStart} (h : Past t starts later) (h' : Past t later latest) :
    Past t starts latest := by
  obtain ⟨held, hheld, rfl⟩ := h
  obtain ⟨held', hheld', rfl⟩ := h'
  exact ⟨held ++ held', fun o ho => (List.mem_append.mp ho).elim (hheld o) (hheld' o), by rw [List.append_assoc]⟩

theorem Past.opened_eq (h : Past t starts later) : opened starts = opened later := by
  obtain ⟨held, hheld, rfl⟩ := h
  have hnone : held.filter (·.holder.isNone) = [] := List.filter_eq_nil_iff.mpr fun o ho => by simp [hheld o ho]
  rw [opened, List.filter_append, hnone, List.nil_append, opened]

theorem Past.subset (h : Past t starts later) : later ⊆ starts := by
  obtain ⟨held, -, rfl⟩ := h
  exact List.subset_append_right held later

/-- Characters of an attribute are passed. -/
theorem past_attribute (t passed rest : List Char) :
    Past t (startsFrom (.tag t passed.length) (passed ++ rest)) (startsFrom (.tag t 0) rest) := by
  induction passed with
  | nil => exact .refl t _
  | cons c passed ih =>
    have hnext : Place.next (.tag t (passed.length + 1)) c (passed ++ rest) = .tag t passed.length := rfl
    rw [List.length_cons, List.cons_append]
    cases hc : startsTag (c :: (passed ++ rest)) with
    | true =>
      rw [startsFrom_cons_of_starts hc, hnext]
      exact .trans ⟨[_], by simp [Place.holder], rfl⟩ ih
    | false =>
      rw [startsFrom_cons hc, hnext]
      exact ih

/-- No attribute starts where there is no blank. -/
theorem attribute?_of_not_blank (h : isBlank c = false) (cs : List Char) : attribute? (c :: cs) = none := by
  rw [attribute?, h]
  rfl

/-- A character in a tag is passed if it neither starts anything nor ends the tag. -/
theorem startsFrom_tag_cons (hlt : c ≠ '<') (hgt : c ≠ '>') (hnone : attribute? (c :: cs) = none) (t : List Char) :
    startsFrom (.tag t 0) (c :: cs) = startsFrom (.tag t 0) cs := by
  have hstart := startsTag_of_ne hlt cs
  have hnext : Place.next (.tag t 0) c cs = .tag t 0 := by simp [Place.next, hstart, hgt, hnone]
  rw [startsFrom_cons hstart, hnext]

theorem ne_of_isBlank (h : isBlank c) : c ≠ '<' ∧ c ≠ '>' := by
  constructor
  · rintro rfl
    exact absurd h (by decide)
  · rintro rfl
    exact absurd h (by decide)

/-- The first character of the name of an element is no blank. -/
theorem isBlank_of_startsElement (h : startsElement c) : isBlank c = false := by
  have hc : inRanges [(65, 90), (95, 95), (97, 122)] c := by
    have hcode : (decide (65 ≤ c.toNat ∧ c.toNat ≤ 90) || (decide (97 ≤ c.toNat) && decide (c.toNat ≤ 122)) ||
        decide (c = '_')) = true := h
    have hlow : c = '_' ↔ c.toNat = 95 := Char.toNat_inj.symm
    simp only [hlow, Bool.or_eq_true, Bool.and_eq_true, decide_eq_true_eq] at hcode
    simp [inRanges]
    omega
  exact inRanges_eq_false (by decide) hc

/-- The name of an element is passed. -/
theorem startsFrom_name {name : List Char} (h : ∀ c ∈ name, startsElement c ∨ isElementChar c) (t rest : List Char) :
    startsFrom (.tag t 0) (name ++ rest) = startsFrom (.tag t 0) rest := by
  induction name with
  | nil => rfl
  | cons c name ih =>
    have hblank : isBlank c = false := by
      rcases h c List.mem_cons_self with hc | hc
      · exact isBlank_of_startsElement hc
      · exact isBlank_of_isAttributeChar (by rw [isAttributeChar, hc, Bool.true_or])
    have hlt : c ≠ '<' := by
      rintro rfl
      exact absurd (h '<' List.mem_cons_self) (by decide +kernel)
    have hgt : c ≠ '>' := by
      rintro rfl
      exact absurd (h '>' List.mem_cons_self) (by decide +kernel)
    rw [List.cons_append, startsFrom_tag_cons hlt hgt (attribute?_of_not_blank hblank _),
      ih fun d hd => h d (List.mem_cons_of_mem c hd)]

theorem quotedValue?_suffix {value : List Char} (h : quotedValue? cs = some (value, rest)) : rest <:+ cs := by
  match cs, h with
  | q :: cs, h =>
    rw [quotedValue?] at h
    split at h
    · obtain ⟨rfl, -⟩ := splitFirst?_eq_some (List.cons_ne_nil q []) h
      exact ⟨q :: (value ++ [q]), by simp⟩
    · cases h

/-- An attribute takes a blank and more of the text. -/
theorem attribute?_eq_some {a : String × String} (h : attribute? cs = some (a, rest)) :
    ∃ b passed, cs = b :: (passed ++ rest) ∧ isBlank b := by
  match cs, h with
  | b :: cs, h =>
    rw [attribute?] at h
    cases hb : isBlank b with
    | false =>
      rw [hb] at h
      cases h
    | true =>
      simp only [hb, Bool.not_true, Bool.false_eq_true, if_false] at h
      split at h
      · cases h
      · split at h
        · next after hsign =>
          obtain ⟨⟨value, rest'⟩, hvalue, heq⟩ := Option.map_eq_some_iff.mp h
          cases heq
          have hafter : rest' <:+ '=' :: after :=
            ((quotedValue?_suffix hvalue).trans (List.dropWhile_suffix _)).trans (List.suffix_cons '=' after)
          rw [← hsign] at hafter
          obtain ⟨passed, hpassed⟩ : rest' <:+ cs :=
            hafter.trans <| (List.dropWhile_suffix _).trans <| (List.dropWhile_suffix _).trans (List.dropWhile_suffix _)
          exact ⟨b, passed, by rw [hpassed], hb⟩
        · cases h

theorem past_attributes {bound : Nat} {found : List (String × String)} (t : List Char)
    (h : attributes bound cs = (found, rest)) :
    Past t (startsFrom (.tag t 0) cs) (startsFrom (.tag t 0) rest) := by
  induction bound generalizing cs found with
  | zero =>
    cases h
    exact .refl t _
  | succ bound ih =>
    rw [attributes] at h
    cases hfirst : attribute? cs with
    | none =>
      rw [hfirst] at h
      cases h
      exact .refl t _
    | some read =>
      obtain ⟨a, after⟩ := read
      -- from the blank that it starts with, an attribute is passed as a whole
      obtain ⟨b, passed, rfl, hb⟩ := attribute?_eq_some hfirst
      obtain ⟨hlt, hgt⟩ := ne_of_isBlank hb
      have hstart := startsTag_of_ne hlt (passed ++ after)
      have hnext : Place.next (.tag t 0) b (passed ++ after) = .tag t passed.length := by
        simp [Place.next, hstart, hgt, hfirst]
      rw [startsFrom_cons hstart, hnext]
      rw [hfirst] at h
      cases h
      exact (past_attribute t passed after).trans (ih rfl)

theorem tagEnd?_eq_some_iff :
    tagEnd? cs = some rest ↔ dropBlanks cs = '/' :: '>' :: rest ∨ dropBlanks cs = '>' :: rest := by
  rw [tagEnd?]
  split
  · next after heq => simp [heq]
  · next after heq => simp [heq]
  · next hslash hend =>
    constructor
    · intro h
      cases h
    · rintro (h | h)
      · exact absurd h (hslash rest)
      · exact absurd h (hend rest)

/-- No attribute is where a tag ends. -/
theorem attribute?_of_tagEnd (h : tagEnd? cs = some rest) : attribute? cs = none := by
  cases cs with
  | nil => rfl
  | cons c cs =>
    cases hc : isBlank c with
    | false => exact attribute?_of_not_blank hc cs
    | true =>
      have hblanks : dropBlanks (c :: cs) = dropBlanks cs := List.dropWhile_cons_of_pos hc
      rw [tagEnd?_eq_some_iff, hblanks] at h
      have hslash : isAttributeChar '/' = false := by decide +kernel
      have hend : isAttributeChar '>' = false := by decide +kernel
      rw [attribute?, hc]
      rcases h with h | h <;> simp [h, hslash, hend]

/-- The end of a tag leaves it. -/
theorem startsFrom_tagEnd (t : List Char) (h : tagEnd? cs = some rest) :
    startsFrom (.tag t 0) cs = startsFrom .text rest := by
  have hleft : ∀ cs, startsFrom (.tag t 0) ('>' :: cs) = startsFrom .text cs := fun cs => by
    rw [startsFrom_cons (startsTag_of_ne (by decide) cs)]
    rfl
  -- the `>` stands behind blanks and perhaps a `/`, at none of which an attribute starts
  induction cs with
  | nil => cases h
  | cons c cs ih =>
    cases hc : isBlank c with
    | true =>
      obtain ⟨hlt, hgt⟩ := ne_of_isBlank hc
      have hblanks : dropBlanks (c :: cs) = dropBlanks cs := List.dropWhile_cons_of_pos hc
      rw [startsFrom_tag_cons hlt hgt (attribute?_of_tagEnd h)]
      refine ih ?_
      rwa [tagEnd?, ← hblanks]
    | false =>
      have hblanks : dropBlanks (c :: cs) = c :: cs := List.dropWhile_cons_of_neg (by simp [hc])
      rw [tagEnd?_eq_some_iff, hblanks] at h
      rcases h with h | h
      · obtain ⟨rfl, rfl⟩ := List.cons.inj h
        rw [startsFrom_tag_cons (by decide) (by decide) (attribute?_of_not_blank hc _), hleft]
      · obtain ⟨rfl, rfl⟩ := List.cons.inj h
        exact hleft _

/-- **A readable tag opens no other**: what starts in it stands in its attributes. -/
theorem past_element {e : Element} (t : List Char) (h : element? (c :: cs) = some (e, rest)) :
    Past t (startsFrom (.tag t 0) cs) (startsFrom .text rest) := by
  obtain ⟨d, ds, closing, heq, hd, -, hattributes, hend⟩ := element?_eq_some h
  obtain ⟨rfl, rfl⟩ := List.cons.inj heq
  have hname : ∀ c ∈ d :: ds.takeWhile isElementChar, startsElement c ∨ isElementChar c := fun c hc =>
    (List.mem_cons.mp hc).imp (fun he => by rw [he, hd]) List.mem_takeWhile_imp
  have hsplit : d :: ds = (d :: ds.takeWhile isElementChar) ++ ds.dropWhile isElementChar := by
    rw [List.cons_append, List.takeWhile_append_dropWhile]
  rw [hsplit, startsFrom_name hname, ← startsFrom_tagEnd t hend]
  exact past_attributes t hattributes

theorem attributes_suffix {bound : Nat} {found : List (String × String)} (h : attributes bound cs = (found, rest)) :
    rest <:+ cs := by
  induction bound generalizing cs found with
  | zero =>
    cases h
    exact List.suffix_rfl
  | succ bound ih =>
    rw [attributes] at h
    cases hfirst : attribute? cs with
    | none =>
      rw [hfirst] at h
      cases h
      exact List.suffix_rfl
    | some read =>
      obtain ⟨a, after⟩ := read
      obtain ⟨b, passed, rfl, -⟩ := attribute?_eq_some hfirst
      rw [hfirst] at h
      cases h
      exact (ih rfl).trans (List.suffix_append (b :: passed) after)

theorem tagEnd?_suffix (h : tagEnd? cs = some rest) : rest <:+ cs := by
  have hblanks : dropBlanks cs <:+ cs := List.dropWhile_suffix _
  rw [tagEnd?_eq_some_iff] at h
  rcases h with h | h <;> rw [h] at hblanks
  · exact (List.suffix_append ['/', '>'] rest).trans hblanks
  · exact (List.suffix_cons '>' rest).trans hblanks

theorem element?_suffix {e : Element} (h : element? (c :: cs) = some (e, rest)) : rest <:+ cs := by
  obtain ⟨d, ds, closing, heq, -, -, hattributes, hend⟩ := element?_eq_some h
  obtain ⟨rfl, rfl⟩ := List.cons.inj heq
  exact (tagEnd?_suffix hend).trans <| (attributes_suffix hattributes).trans <|
    (List.dropWhile_suffix _).trans (List.suffix_cons d ds)

/-! ### What is read of the tags that are opened -/

/-- The element that a tag is, if it is readable. -/
def elementAt? (t : List Char) : Option Element := (element? t).map Prod.fst

/-- **No unreadable tag has the start of another in an attribute.** -/
def Unhidden (starts : List TagStart) : Prop := ∀ o ∈ starts, ∀ t ∈ o.holder, IsReadable t

instance : DecidablePred Unhidden := fun starts =>
  inferInstanceAs (Decidable (∀ o ∈ starts, ∀ t ∈ o.holder, IsReadable t))

theorem Unhidden.subset (h : Unhidden starts) (hsub : later ⊆ starts) : Unhidden later := fun o ho => h o (hsub ho)

/-- A place that is in no readable tag. -/
def Place.Outside (place : Place) : Prop := ∀ t left, place = .tag t left → ¬IsReadable t

/-- A character stays in its tag, or enters the one that starts there. -/
theorem Place.next_eq_tag {left : Nat} (h : place.next c cs = .tag t left) :
    (∃ left', place = .tag t left') ∨ place.holder = none ∧ startsTag (c :: cs) ∧ t = c :: cs := by
  match place, h with
  | .text, h =>
    rw [Place.next] at h
    split at h
    · next hstart =>
      cases h
      exact .inr ⟨rfl, hstart, rfl⟩
    · cases h
  | .tag t' (n + 1), h =>
    cases h
    exact .inl ⟨_, rfl⟩
  | .tag t' 0, h =>
    rw [Place.next] at h
    split at h
    · next hstart =>
      cases h
      exact .inr ⟨rfl, hstart, rfl⟩
    · split at h
      · cases h
      · split at h <;> cases h <;> exact .inl ⟨_, rfl⟩

/-- Where no tag starts, none is entered. -/
theorem Place.Outside.next (h : place.Outside) (hstart : startsTag (c :: cs) = false) : (place.next c cs).Outside := by
  intro t left he
  rcases Place.next_eq_tag he with ⟨left', hplace⟩ | ⟨-, hstart', -⟩
  · exact h t left' hplace
  · rw [hstart] at hstart'
    cases hstart'

/-- Where a tag starts in no attribute, it is entered. -/
theorem Place.next_of_starts (h : place.holder = none) (hstart : startsTag (c :: cs)) :
    place.next c cs = .tag (c :: cs) 0 := by
  match place, h with
  | .text, _ => rw [Place.next, if_pos hstart]
  | .tag t 0, _ => rw [Place.next, if_pos hstart]

/-- The tags that start outside readable ones are opened, if no unreadable one hides another. -/
theorem Place.Outside.holder_eq_none (h : place.Outside) (hopen : ∀ t, place.holder = some t → IsReadable t) :
    place.holder = none := by
  match place, h, hopen with
  | .text, _, _ => rfl
  | .tag t 0, _, _ => rfl
  | .tag t (left + 1), h, hopen => exact absurd (hopen t rfl) (h t _ rfl)

theorem Place.outside_text : Place.text.Outside := fun t left he => by cases he

theorem Place.outside_tag (h : element? t = none) (left : Nat) : (Place.tag t left).Outside := by
  rintro t' left' he
  cases he
  simp [IsReadable, h]

/-- **What is found is what the opened tags are**, from any place outside readable tags on. -/
theorem findAll_eq_filterMap_opened (n : Nat) (hn : cs.length ≤ n) (hplace : place.Outside)
    (h : Unhidden (startsFrom place cs)) :
    findAll element? cs = (opened (startsFrom place cs)).filterMap elementAt? := by
  -- the induction is on the length: behind a readable tag both go on where it ends
  induction n generalizing cs place with
  | zero =>
    obtain rfl := List.length_eq_zero_iff.mp (Nat.le_zero.mp hn)
    rfl
  | succ n ih =>
    match cs with
    | [] => rfl
    | c :: cs =>
      have hshorter : cs.length ≤ n := Nat.le_of_succ_le_succ hn
      cases hstart : startsTag (c :: cs) with
      | false =>
        rw [startsFrom_cons hstart] at h ⊢
        rw [findAll_cons_none (element?_eq_none hstart)]
        exact ih hshorter (hplace.next hstart) h
      | true =>
        rw [startsFrom_cons_of_starts hstart] at h ⊢
        have hholder := hplace.holder_eq_none (h _ List.mem_cons_self)
        rw [Place.next_of_starts hholder hstart] at h ⊢
        have hlater := h.subset (List.subset_cons_self _ _)
        rw [opened_cons hholder, List.filterMap_cons, elementAt?]
        cases hfound : element? (c :: cs) with
        | none =>
          -- the tag is passed over, and what starts in it is looked at by both
          rw [findAll_cons_none hfound]
          exact ih hshorter (Place.outside_tag hfound 0) hlater
        | some found =>
          obtain ⟨e, rest⟩ := found
          obtain ⟨claimed, rfl⟩ := element?_suffix hfound
          have hpast := past_element (c :: (claimed ++ rest)) hfound
          have hrest : rest.length ≤ n := by
            rw [List.length_append] at hshorter
            omega
          have hfind : findAll element? (c :: (claimed ++ rest)) = e :: findAll element? rest :=
            findAll_append_found (List.cons_ne_nil c claimed) hfound
          rw [hfind, hpast.opened_eq, ih hrest Place.outside_text (hlater.subset hpast.subset)]
          rfl

theorem Place.holder_eq_some (h : place.holder = some t) : ∃ left, place = .tag t left := by
  match place, h with
  | .tag t' (left + 1), h =>
    cases h
    exact ⟨_, rfl⟩

/-- A tag in an attribute of which another starts is opened itself, or was before. -/
theorem holder_mem_opened {o : TagStart} (ho : o ∈ startsFrom place cs) (ht : o.holder = some t) :
    (∃ left, place = .tag t left) ∨ t ∈ opened (startsFrom place cs) := by
  induction cs generalizing place with
  | nil => cases ho
  | cons c cs ih =>
    -- a start behind this character is in the tag of the next place, which may be one that starts here
    have hlater (later : o ∈ startsFrom (place.next c cs) cs) :
        (∃ left, place = .tag t left) ∨ (place.holder = none ∧ startsTag (c :: cs) ∧ t = c :: cs) ∨
          t ∈ opened (startsFrom (place.next c cs) cs) := by
      rcases ih later with ⟨left, he⟩ | hmem
      · exact (Place.next_eq_tag he).imp_right .inl
      · exact .inr (.inr hmem)
    cases hstart : startsTag (c :: cs) with
    | false =>
      rw [startsFrom_cons hstart] at ho ⊢
      simpa [hstart] using hlater ho
    | true =>
      rw [startsFrom_cons_of_starts hstart] at ho ⊢
      rcases List.mem_cons.mp ho with rfl | ho
      · exact .inl (Place.holder_eq_some ht)
      · rcases hlater ho with hplace | ⟨hnone, -, rfl⟩ | hmem
        · exact .inl hplace
        · exact .inr (by simp [opened, hnone])
        · refine .inr ?_
          obtain ⟨o', ho', rfl⟩ := List.mem_map.mp hmem
          obtain ⟨ho', hnone⟩ := List.mem_filter.mp ho'
          exact List.mem_map_of_mem (List.mem_filter.mpr ⟨List.mem_cons_of_mem _ ho', hnone⟩)

/-- Where every tag that is opened is readable, none is hidden. -/
theorem unhidden_of_isReadable (h : ∀ t ∈ openedTags cs, IsReadable t) : Unhidden (tagStarts cs) := by
  intro o ho t ht
  rcases holder_mem_opened ho ht with ⟨left, he⟩ | hmem
  · cases he
  · exact h t hmem

/-! ### The steps of a plan -/

variable {k : Kernel} {elements : List Element} {steps : List PlanStep} {s : PlanStep}

/-- The element describes the step: it calls the function that the element names, with its attributes. -/
def Element.Describes (k : Kernel) (e : Element) (s : PlanStep) : Prop :=
  ∃ name f, e.function? = some name ∧ k.registry.find name = .ok f ∧ s = stepOf f.view e.attributes

/-- **The tag describes the step**: it is readable, and its element does. -/
def Describes (k : Kernel) (t : List Char) (s : PlanStep) : Prop := ∃ e, elementAt? t = some e ∧ e.Describes k s

/-- Steps are read of the elements that call functions, one of each, and all the functions are there. -/
theorem stepsOf_eq_ok_iff : stepsOf k false elements = .ok steps ↔
    List.Forall₂ (Element.Describes k) (elements.filter (·.function?.isSome)) steps := by
  induction elements generalizing steps with
  | nil =>
    rw [stepsOf, List.filter_nil, List.forall₂_nil_left_iff]
    exact ⟨fun h => (Except.ok.inj h).symm, fun h => by rw [h]⟩
  | cons e elements ih =>
    rw [stepsOf_cons_eq_ok_iff]
    cases hname : e.function? with
    | none =>
      rw [List.filter_cons_of_neg (by simp [hname]), ← ih]
      simp
    | some name =>
      rw [List.filter_cons_of_pos (by simp [hname]), List.forall₂_cons_left_iff]
      constructor
      · rintro (⟨hnone, -⟩ | ⟨_, _, -, -, hallowed, -⟩ | ⟨name', f, rest, hname', hfind, hrest, rfl⟩)
        · cases hnone
        · cases hallowed
        · exact ⟨_, rest, ⟨name', f, hname.trans hname', hfind, rfl⟩, ih.mp hrest, rfl⟩
      · rintro ⟨_, rest, ⟨name', f, hname', hfind, rfl⟩, hrest, rfl⟩
        exact .inr (.inr ⟨name', f, rest, hname.symm.trans hname', hfind, ih.mpr hrest, rfl⟩)

/-- What the steps of a plan are read from: the body of the first plan without its comments. -/
def bodyText (text : String) : List Char := dropComments ((planBody? text.toList).getD [])

/-- **What is read as a plan**: at least one step, of the elements found in the body. -/
theorem readMarkup_eq_ok_iff {text goal : String} {plan : Plan} : readMarkup text goal k false = .ok plan ↔
    plan.steps ≠ [] ∧ plan = Plan.ofSteps goal plan.steps ∧
      List.Forall₂ (Element.Describes k) ((findAll element? (bodyText text)).filter (·.function?.isSome))
        plan.steps := by
  rw [readMarkup, planElements?, bodyText]
  cases planBody? text.toList with
  | none =>
    -- without a plan there are no elements, and so no steps
    refine ⟨fun h => (by cases h), ?_⟩
    rintro ⟨hne, -, hsteps⟩
    exact absurd (List.forall₂_nil_left_iff.mp hsteps) hne
  | some body =>
    simp only [Option.map_some, Option.getD_some]
    rw [← stepsOf_eq_ok_iff]
    cases hsteps : stepsOf k false (findAll element? (dropComments body)) with
    | error _ => exact ⟨fun h => (by cases h), fun h => (by cases h.2.2)⟩
    | ok steps =>
      simp only [bind, Except.bind]
      constructor
      · intro h
        split at h
        · cases h
        · next hne =>
          obtain rfl := Except.ok.inj h
          rw [Plan.ofSteps_steps]
          exact ⟨by simpa using hne, rfl, rfl⟩
      · rintro ⟨hne, hplan, heq⟩
        obtain rfl := Except.ok.inj heq
        rw [if_neg (by simpa using hne)]
        exact congrArg Except.ok hplan.symm

/-- Some text at the start of a run of characters of one kind, if its own are of that kind. -/
theorem prefix_takeWhile_iff {p : Char → Bool} {mark : List Char} (h : ∀ c ∈ mark, p c) :
    mark <+: cs.takeWhile p ↔ mark <+: cs := by
  refine ⟨fun hp => hp.trans (List.takeWhile_prefix p), ?_⟩
  rintro ⟨rest, rfl⟩
  rw [List.takeWhile_append_of_pos h]
  exact List.prefix_append _ _

/-- A readable tag calls a function if it says so. -/
theorem isSome_function? {e : Element} (h : elementAt? t = some e) :
    e.function?.isSome = ("<" ++ functionMark).toList.isPrefixOf t := by
  obtain ⟨⟨e', rest⟩, hfound, rfl⟩ := Option.map_eq_some_iff.mp h
  obtain ⟨d, ds, -, rfl, -, hname, -, -⟩ := element?_eq_some hfound
  -- all the characters of the mark may stand in names, so the name starts with it if the tag does
  have hmark : functionMark.toList = 'f' :: "unction.".toList := rfl
  have hrun : "unction.".toList <+: ds.takeWhile isElementChar ↔ "unction.".toList <+: ds :=
    prefix_takeWhile_iff (List.all_eq_true.mp (by decide +kernel))
  rw [Element.function?, Option.isSome_map, List.isSome_isPrefixOf?_eq_isPrefixOf, hname, String.toList_ofList,
    String.toList_append, Bool.eq_iff_iff, List.isPrefixOf_iff_prefix, List.isPrefixOf_iff_prefix, hmark,
    List.cons_prefix_cons, hrun]
  exact (List.prefix_append_right_inj ['<']).trans List.cons_prefix_cons |>.symm

section Values

variable {α β γ : Type} {f : α → Option β} {R : β → γ → Prop} {xs : List α} {ys : List γ}

/-- Values are related to others as those that they are the values of. -/
theorem forall₂_filterMap_iff :
    List.Forall₂ R (xs.filterMap f) ys ↔
      List.Forall₂ (fun x y => ∃ b, f x = some b ∧ R b y) (xs.filter fun x => (f x).isSome) ys := by
  induction xs generalizing ys with
  | nil => simp
  | cons x xs ih =>
    cases hx : f x with
    | none => rw [List.filterMap_cons_none hx, List.filter_cons_of_neg (by simp [hx]), ih]
    | some b =>
      rw [List.filterMap_cons_some hx, List.filter_cons_of_pos (by simp [hx]), List.forall₂_cons_left_iff,
        List.forall₂_cons_left_iff]
      simp [hx, ih]

end Values

/-- Where no unreadable tag hides another, the elements that call functions are the tags that do, as far as they can be
read. -/
theorem filter_findAll (h : Unhidden (tagStarts cs)) :
    (findAll element? cs).filter (·.function?.isSome) = (functionTags cs).filterMap elementAt? := by
  have hfound : findAll element? cs = (openedTags cs).filterMap elementAt? :=
    findAll_eq_filterMap_opened cs.length le_rfl Place.outside_text h
  rw [hfound, functionTags, List.filter_filterMap, List.filterMap_filter]
  refine List.filterMap_congr fun t _ => ?_
  cases ht : elementAt? t with
  | none => simp
  | some e => rw [← isSome_function? ht, Option.filter_some]

theorem isReadable_iff : IsReadable t ↔ (elementAt? t).isSome := by rw [IsReadable, elementAt?, Option.isSome_map]

theorem Describes.isReadable (h : Describes k t s) : IsReadable t := by
  obtain ⟨e, he, -⟩ := h
  rw [isReadable_iff, he, Option.isSome_some]

/-- Tags that describe steps are readable. -/
theorem isReadable_of_forall₂ {tags : List (List Char)} (h : List.Forall₂ (Describes k) tags steps) :
    ∀ t ∈ tags, IsReadable t :=
  ((List.forall₂_and_left _ _).mp (h.imp fun _ _ hs => ⟨hs.isReadable, hs⟩)).1

variable {text goal : String} {plan : Plan}

/-- The steps of a plan are what its readable tags describe. -/
theorem readMarkup_readable (h : Unhidden (tagStarts (bodyText text))) :
    readMarkup text goal k false = .ok plan ↔ plan.steps ≠ [] ∧ plan = Plan.ofSteps goal plan.steps ∧
      List.Forall₂ (Describes k) ((functionTags (bodyText text)).filter IsReadable) plan.steps := by
  have hreadable : (functionTags (bodyText text)).filter IsReadable =
      (functionTags (bodyText text)).filter fun t => (elementAt? t).isSome :=
    List.filter_congr fun t _ => by simp [isReadable_iff]
  rw [readMarkup_eq_ok_iff, filter_findAll h, forall₂_filterMap_iff, hreadable]
  rfl

/-- **Every tag that is opened to call a function is a step**, and every step is one of these, in order, if all the
tags of the plan are readable. Among others, those that are readable are the steps, and the others are passed over
without a word, so that the plan is as long as it should be only if there are none. -/
theorem readMarkup_functionTags (text goal : String) (k : Kernel) (plan : Plan) :
    ((∀ t ∈ openedTags (bodyText text), IsReadable t) →
      (readMarkup text goal k false = .ok plan ↔ plan.steps ≠ [] ∧ plan = Plan.ofSteps goal plan.steps ∧
        List.Forall₂ (Describes k) (functionTags (bodyText text)) plan.steps)) ∧
    (Unhidden (tagStarts (bodyText text)) →
      (readMarkup text goal k false = .ok plan ↔ plan.steps ≠ [] ∧ plan = Plan.ofSteps goal plan.steps ∧
        List.Forall₂ (Describes k) ((functionTags (bodyText text)).filter IsReadable) plan.steps) ∧
      (readMarkup text goal k false = .ok plan →
        (List.Forall₂ (Describes k) (functionTags (bodyText text)) plan.steps ↔
          ∀ t ∈ functionTags (bodyText text), IsReadable t))) := by
  have hall (h : ∀ t ∈ functionTags (bodyText text), IsReadable t) :
      (functionTags (bodyText text)).filter IsReadable = functionTags (bodyText text) :=
    List.filter_eq_self.mpr fun t ht => decide_eq_true (h t ht)
  refine ⟨fun h => ?_, fun h => ⟨readMarkup_readable h, fun hread => ⟨isReadable_of_forall₂, fun hfunctions => ?_⟩⟩⟩
  · rw [readMarkup_readable (unhidden_of_isReadable h), hall fun t ht => h t (List.mem_of_mem_filter ht)]
  · have hsteps := (readMarkup_readable h).mp hread
    rw [hall hfunctions] at hsteps
    exact hsteps.2.2

/-! ### Tags that are lost -/

theorem exists_plan_of_stepsRead (text : String) (steps : List PlanStep) (h : stepsRead text = some steps) :
    ∃ plan, readMarkup text "laugh" jester false = .ok plan ∧ plan.steps = steps := by
  rw [stepsRead] at h
  cases hread : readMarkup text "laugh" jester false with
  | error _ =>
    rw [hread] at h
    cases h
  | ok plan =>
    rw [hread] at h
    exact ⟨plan, rfl, Option.some.inj h⟩

/-- A joke, as a step without arguments. -/
def aJoke : PlanStep where
  plugin := globalPlugin
  function := "Joke"

/-- The last of two steps has a value without quotes. -/
def losing : String := "<plan><function.Joke/><function.Joke input=plain/></plan>"

theorem stepsRead_losing : stepsRead losing = some [aJoke] := by decide +kernel

theorem functionTags_losing : functionTags (bodyText losing) =
    ["<function.Joke/><function.Joke input=plain/>".toList, "<function.Joke input=plain/>".toList] := by
  decide +kernel

/-- A step has an attribute without a value, and a tag in the next attribute. -/
def concealing : String := "<plan><function.Laugh loudly input='<function.Joke/>'/></plan>"

theorem functionTags_concealing :
    functionTags (bodyText concealing) = ["<function.Laugh loudly input='<function.Joke/>'/>".toList] := by
  decide +kernel

/-- **A tag that cannot be read is lost without a word**, and a step may be read from within it. -/
theorem readMarkup_loses_tags :
    (∃ plan, readMarkup losing "laugh" jester false = .ok plan ∧ plan.steps = [aJoke] ∧
      (functionTags (bodyText losing)).length = 2 ∧
      ¬List.Forall₂ (Describes jester) (functionTags (bodyText losing)) plan.steps) ∧
    ∃ plan, readMarkup concealing "laugh" jester false = .ok plan ∧ plan.steps = [aJoke] ∧
      functionTags (bodyText concealing) = ["<function.Laugh loudly input='<function.Joke/>'/>".toList] ∧
      ¬List.Forall₂ (Describes jester) (functionTags (bodyText concealing)) plan.steps := by
  obtain ⟨plan, hread, hsteps⟩ := exists_plan_of_stepsRead losing [aJoke] stepsRead_losing
  obtain ⟨other, hother, hsteps'⟩ := exists_plan_of_stepsRead concealing [aJoke] (by decide +kernel)
  have hlosing : ¬IsReadable "<function.Joke input=plain/>".toList := by decide +kernel
  have hconcealing : ¬IsReadable "<function.Laugh loudly input='<function.Joke/>'/>".toList := by decide +kernel
  refine ⟨⟨plan, hread, hsteps, by rw [functionTags_losing]; rfl, fun h => hlosing ?_⟩,
    other, hother, hsteps', functionTags_concealing, fun h => hconcealing ?_⟩
  · rw [functionTags_losing] at h
    exact isReadable_of_forall₂ h _ (by simp)
  · rw [functionTags_concealing] at h
    exact isReadable_of_forall₂ h _ (by simp)

/-- What looks like a step may stand in a comment and in a value. -/
def telling : String := "<plan><!-- <function.Laugh/> --><function.joke input='<function.Laugh/>'/></plan>"

theorem readMarkup_functionTags_jokes :
    (∀ t ∈ openedTags (bodyText telling), IsReadable t) ∧
    (∃ plan, readMarkup telling "laugh" jester false = .ok plan ∧
      plan.steps = [aJoke.withParameter "input" "<function.Laugh/>"] ∧
      List.Forall₂ (Describes jester) (functionTags (bodyText telling)) plan.steps) ∧
    Unhidden (tagStarts (bodyText losing)) ∧
    ∃ plan, readMarkup losing "laugh" jester false = .ok plan ∧
      List.Forall₂ (Describes jester) ((functionTags (bodyText losing)).filter IsReadable) plan.steps ∧
      (List.Forall₂ (Describes jester) (functionTags (bodyText losing)) plan.steps ↔
        ∀ t ∈ functionTags (bodyText losing), IsReadable t) := by
  have htelling : ∀ t ∈ openedTags (bodyText telling), IsReadable t := by decide +kernel
  have hlosing : Unhidden (tagStarts (bodyText losing)) := by decide +kernel
  obtain ⟨plan, hread, hsteps⟩ :=
    exists_plan_of_stepsRead telling [aJoke.withParameter "input" "<function.Laugh/>"] (by decide +kernel)
  obtain ⟨other, hother, -⟩ := exists_plan_of_stepsRead losing [aJoke] stepsRead_losing
  have htold := (readMarkup_functionTags telling "laugh" jester plan).1 htelling
  have hlost := (readMarkup_functionTags losing "laugh" jester other).2 hlosing
  exact ⟨htelling, ⟨plan, hread, hsteps, (htold.mp hread).2.2⟩, hlosing, other, hother, (hlost.1.mp hother).2.2,
    hlost.2 hother⟩

end Orchestration.Planner
