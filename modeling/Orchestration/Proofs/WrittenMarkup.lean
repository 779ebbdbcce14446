import Orchestration.Proofs.MarkupValues

/-!
# Markup that was written

Steps are written in markup as elements with nothing in them, and arguments as attributes. Much is free: the
blanks between and in the elements, the order of the attributes, the quotes, which characters of a value are
entities, and all that stands around the plan. The elements that are found depend on none of it.

* `Attribute`, `Tag` — what is written: well formed, and otherwise as one likes.
* `Attribute.attribute?_text`, `Tag.element?_text` — what was written is read, whatever follows.
* `planElements?_planText` — the elements of a plan that was written are those of its tags, whatever stands
  around it.
-/

namespace Orchestration

open Text

namespace Planner

/-! ### Characters -/

theorem inRanges_eq_false {ranges others : List (Nat × Nat)} {c : Char}
    (h : ∀ r ∈ ranges, ∀ o ∈ others, r.2 < o.1 ∨ o.2 < r.1) (hc : inRanges ranges c) :
    inRanges others c = false := by
  obtain ⟨r, hr, hin⟩ := List.any_eq_true.mp hc
  refine List.any_eq_false.mpr fun o ho hother => ?_
  simp only [Bool.and_eq_true, decide_eq_true_eq] at hin hother
  have := h r hr o ho
  omega

/-- No blank is a character of a name. -/
theorem isAttributeChar_of_isBlank {c : Char} (h : isBlank c) : isAttributeChar c = false := by
  -- the two tables have no range in common, and the other characters of names are not in the first
  have hword : isWordChar c = false := inRanges_eq_false (by decide +kernel) h
  have hne : ∀ d, isBlank d = false → c ≠ d := fun d hd he => by simp [← he, h] at hd
  simp only [isAttributeChar, isElementChar, hword, hne '.' (by decide), hne '-' (by decide),
    hne ':' (by decide), decide_false, Bool.or_self]

theorem isBlank_of_isAttributeChar {c : Char} (h : isAttributeChar c) : isBlank c = false := by
  cases hb : isBlank c with
  | false => rfl
  | true => rw [isAttributeChar_of_isBlank hb] at h; cases h

theorem isElementChar_of_isBlank {c : Char} (h : isBlank c) : isElementChar c = false := by
  have hattribute := isAttributeChar_of_isBlank h
  rw [isAttributeChar, Bool.or_eq_false_iff] at hattribute
  exact hattribute.1

/-! ### Attributes -/

/-- Blanks, or nothing. -/
structure Gap where
  /-- the blanks -/
  chars : List Char := []
  blank : chars.all isBlank := by decide

theorem Gap.isBlank_of_mem (g : Gap) : ∀ c ∈ g.chars, isBlank c := List.all_eq_true.mp g.blank

/-- A gap with a character behind it starts with a blank or with that character. -/
theorem Gap.exists_head (g : Gap) (c : Char) (cs : List Char) :
    ∃ d ds, g.chars ++ c :: cs = d :: ds ∧ (isBlank d ∨ d = c) := by
  cases h : g.chars with
  | nil => exact ⟨c, cs, rfl, .inr rfl⟩
  | cons d ds => exact ⟨d, _, rfl, .inl (g.isBlank_of_mem d (h ▸ List.mem_cons_self))⟩

theorem Gap.lt_not_mem (g : Gap) : '<' ∉ g.chars := fun h => by
  simpa [show isBlank '<' = false by decide] using g.isBlank_of_mem _ h

/-- Whether a text has the form of the name of an attribute. -/
def AttributeName (name : String) : Prop := name ≠ "" ∧ name.toList.all isAttributeChar

instance : DecidablePred AttributeName := fun name =>
  inferInstanceAs (Decidable (name ≠ "" ∧ name.toList.all isAttributeChar))

theorem AttributeName.isAttributeChar {name : String} (h : AttributeName name) :
    ∀ c ∈ name.toList, isAttributeChar c :=
  List.all_eq_true.mp h.2

/-- An attribute as it is written. -/
structure Attribute where
  /-- the blanks before it, at least one -/
  before : Gap
  parted : before.chars ≠ [] := by decide
  /-- its name -/
  name : String
  named : AttributeName name := by decide +kernel
  /-- the blanks before the equals sign -/
  beforeSign : Gap := {}
  /-- the blanks after the equals sign -/
  afterSign : Gap := {}
  /-- the quote on either side of its value -/
  quote : Char := '"'
  quoted : quote = '"' ∨ quote = '\'' := by decide
  /-- its value as it is written -/
  signs : List Sign
  fits : ∀ s ∈ signs, s.Fits quote := by decide +kernel

namespace Attribute

/-- The attribute as it is written. -/
def text (a : Attribute) : List Char :=
  a.before.chars ++ a.name.toList ++ a.beforeSign.chars ++ '=' :: a.afterSign.chars ++
    a.quote :: Sign.textOf a.signs ++ [a.quote]

/-- The name of the attribute and its value as it is written. -/
def raw (a : Attribute) : String × String := (a.name, .ofList (Sign.textOf a.signs))

/-- The name of the attribute and its value. -/
def pair (a : Attribute) : String × String := (a.name, .ofList (Sign.charsOf a.signs))

theorem text_eq (a : Attribute) (rest : List Char) :
    a.text ++ rest = a.before.chars ++ (a.name.toList ++ (a.beforeSign.chars ++
      '=' :: (a.afterSign.chars ++ a.quote :: (Sign.textOf a.signs ++ a.quote :: rest)))) := by
  simp only [text, List.append_assoc, List.cons_append, List.nil_append]

theorem isBlank_quote (a : Attribute) : isBlank a.quote = false := by
  rcases a.quoted with h | h <;> rw [h] <;> decide

/-- The value is read up to the quote that closes it. -/
theorem quotedValue?_signs (a : Attribute) (rest : List Char) :
    quotedValue? (a.quote :: (Sign.textOf a.signs ++ a.quote :: rest)) =
      some (Sign.textOf a.signs, rest) := by
  rw [quotedValue?, if_pos a.quoted, splitFirst?_append (Sign.not_mem_textOf a.fits a.quoted).1]
  have hmark : splitFirst? [a.quote] (a.quote :: rest) = some ([], rest) := splitFirst?_mark _ [] rest
  rw [hmark, Option.map_some, Prod.map_apply, List.append_nil, id]

/-- **An attribute that was written is read**, with its value as it is written. -/
theorem attribute?_text (a : Attribute) (rest : List Char) :
    attribute? (a.text ++ rest) = some (a.raw, rest) := by
  obtain ⟨b, bs, hbefore⟩ := List.exists_cons_of_ne_nil a.parted
  have hb : ∀ c ∈ b :: bs, isBlank c := hbefore ▸ a.before.isBlank_of_mem
  obtain ⟨n, ns, hname⟩ := List.exists_cons_of_ne_nil (mt String.toList_eq_nil_iff.mp a.named.1)
  have hn : ∀ c ∈ n :: ns, isAttributeChar c := hname ▸ a.named.isAttributeChar
  rw [text_eq, hbefore, hname, List.cons_append, attribute?, if_neg (by simp [hb b List.mem_cons_self])]
  -- what comes behind the name is no character of a name
  obtain ⟨d, ds, htail, hd⟩ := a.beforeSign.exists_head '='
    (a.afterSign.chars ++ a.quote :: (Sign.textOf a.signs ++ a.quote :: rest))
  have hstop : isAttributeChar d = false := hd.elim isAttributeChar_of_isBlank (· ▸ by decide +kernel)
  have hblanks : dropBlanks (bs ++ (n :: ns ++ d :: ds)) = n :: ns ++ d :: ds :=
    dropBlanks_append (fun c hc => hb c (List.mem_cons_of_mem _ hc))
      (isBlank_of_isAttributeChar (hn n List.mem_cons_self))
  rw [htail]
  simp only [hblanks, takeWhile_append_stop hn hstop, dropWhile_append_stop hn hstop,
    List.isEmpty_cons, Bool.false_eq_true, if_false]
  rw [← htail, dropBlanks_append a.beforeSign.isBlank_of_mem (by decide)]
  simp only [dropBlanks_append a.afterSign.isBlank_of_mem a.isBlank_quote, quotedValue?_signs,
    Option.map_some, raw, ← hname, String.ofList_toList]

/-- Unescaping what is written gives the value. -/
theorem unescape_raw (a : Attribute) : (a.raw.1, unescape a.raw.2) = a.pair := by
  have h : ∀ s ∈ a.signs, s ≠ .plain '&' := fun s hs he => by
    have := a.fits s hs
    rw [he] at this
    exact this.2.2 rfl
  rw [raw, Sign.unescape_textOf h, pair]

/-- No tag starts inside an attribute. -/
theorem lt_not_mem_text (a : Attribute) : '<' ∉ a.text := by
  have hname : '<' ∉ a.name.toList := fun h => by
    simpa [show isAttributeChar '<' = false by decide +kernel] using a.named.isAttributeChar _ h
  have hquote : '<' ≠ a.quote := by rcases a.quoted with h | h <;> rw [h] <;> decide
  simp [text, Gap.lt_not_mem, hname, hquote, (Sign.not_mem_textOf a.fits a.quoted).2]

/-- Attributes as they are written, one after another. -/
def textOf (as : List Attribute) : List Char := as.flatMap text

theorem textOf_cons (a : Attribute) (as : List Attribute) : textOf (a :: as) = a.text ++ textOf as :=
  List.flatMap_cons

theorem lt_not_mem_textOf (as : List Attribute) : '<' ∉ textOf as := by
  simp only [textOf, List.mem_flatMap, not_exists, not_and]
  exact fun a _ => a.lt_not_mem_text

/-- As many attributes are read as were written, if what follows is none. -/
theorem attributes_textOf {as : List Attribute} {bound : Nat} {rest : List Char} (hb : as.length ≤ bound)
    (hrest : attribute? rest = none) :
    attributes bound (textOf as ++ rest) = (as.map raw, rest) := by
  -- each attribute uses up one of the bound, so that with any left the end is noticed by what follows
  induction as generalizing bound with
  | nil =>
    cases bound with
    | zero => rfl
    | succ bound =>
      change attributes (bound + 1) rest = ([], rest)
      rw [attributes, hrest]
  | cons a as ih =>
    obtain ⟨n, rfl⟩ : ∃ n, bound = n + 1 := ⟨bound - 1, by rw [List.length_cons] at hb; omega⟩
    have hn : as.length ≤ n := by rw [List.length_cons] at hb; omega
    rw [textOf_cons, List.append_assoc, attributes, attribute?_text]
    simp only [ih hn, List.map_cons]

/-- The length of the text is bound enough. -/
theorem length_le_length_textOf (as : List Attribute) : as.length ≤ (textOf as).length := by
  induction as with
  | nil => exact Nat.zero_le _
  | cons a as ih =>
    rw [textOf_cons, List.length_append, List.length_cons, text]
    simp only [List.length_append, List.length_cons]
    omega

end Attribute

/-! ### Tags -/

/-- A step as it is written: an element that calls a function and has nothing in it. -/
structure Tag where
  /-- the blanks before it -/
  before : Gap := {}
  /-- the name of the function -/
  name : String
  named : name.toList.all isElementChar := by decide +kernel
  /-- its attributes -/
  arguments : List Attribute := []
  /-- the blanks before its end -/
  trail : Gap := {}

namespace Tag

theorem isElementChar_of_mem (t : Tag) : ∀ c ∈ t.name.toList, isElementChar c :=
  List.all_eq_true.mp t.named

/-- What follows the first character of a tag. -/
def inner (t : Tag) : List Char :=
  functionMark.toList ++ t.name.toList ++ Attribute.textOf t.arguments ++ t.trail.chars ++ ['/', '>']

/-- The tag as it is written, with the blanks before it. -/
def text (t : Tag) : List Char := t.before.chars ++ '<' :: t.inner

/-- The element that the tag is. -/
def element (t : Tag) : Element := ⟨functionMark ++ t.name, t.arguments.map Attribute.raw⟩

theorem lt_not_mem_inner (t : Tag) : '<' ∉ t.inner := by
  have hname : '<' ∉ t.name.toList := fun h => by
    simpa [show isElementChar '<' = false by decide +kernel] using t.isElementChar_of_mem _ h
  have hmark : '<' ∉ functionMark.toList := by decide
  simp [inner, hmark, hname, Attribute.lt_not_mem_textOf, Gap.lt_not_mem]

/-- What follows the attributes is no attribute. -/
theorem attribute?_trail (g : Gap) (rest : List Char) : attribute? (g.chars ++ '/' :: rest) = none := by
  cases h : g.chars with
  | nil =>
    rw [List.nil_append, attribute?, if_pos (by decide)]
  | cons b bs =>
    have hb : ∀ c ∈ b :: bs, isBlank c := h ▸ g.isBlank_of_mem
    have hblanks : dropBlanks (bs ++ '/' :: rest) = '/' :: rest :=
      dropBlanks_append (fun c hc => hb c (List.mem_cons_of_mem _ hc)) (by decide)
    have hnone : isAttributeChar '/' = false := by decide +kernel
    rw [List.cons_append, attribute?, if_neg (by simp [hb b List.mem_cons_self])]
    simp only [hblanks, List.takeWhile_cons, hnone, Bool.false_eq_true, if_false, List.isEmpty_nil, if_true]

/-- Behind the name of an element there is no character of a name. -/
theorem exists_stop (t : Tag) (rest : List Char) :
    ∃ d ds, Attribute.textOf t.arguments ++ (t.trail.chars ++ '/' :: rest) = d :: ds ∧
      isElementChar d = false := by
  cases h : t.arguments with
  | nil =>
    obtain ⟨d, ds, htail, hd⟩ := t.trail.exists_head '/' rest
    exact ⟨d, ds, htail, hd.elim isElementChar_of_isBlank (· ▸ by decide +kernel)⟩
  | cons a as =>
    obtain ⟨b, bs, hbefore⟩ := List.exists_cons_of_ne_nil a.parted
    refine ⟨b, _, by rw [Attribute.textOf_cons, Attribute.text, hbefore]; rfl, ?_⟩
    exact isElementChar_of_isBlank (a.before.isBlank_of_mem b (hbefore ▸ List.mem_cons_self))

/-- **A tag that was written is read** as its element. -/
theorem element?_text (t : Tag) (rest : List Char) :
    element? ('<' :: t.inner ++ rest) = some (t.element, rest) := by
  have hmark : functionMark.toList = 'f' :: "unction.".toList := rfl
  have hchars : "unction.".toList.all isElementChar := by decide +kernel
  have hrun : ∀ c ∈ "unction.".toList ++ t.name.toList, isElementChar c := fun c hc =>
    (List.mem_append.mp hc).elim (List.all_eq_true.mp hchars c) (t.isElementChar_of_mem c)
  -- the name ends where the attributes start, or the end of the tag
  obtain ⟨d, ds, htail, hd⟩ := t.exists_stop ('>' :: rest)
  have hinner : t.inner ++ rest = 'f' :: ("unction.".toList ++ t.name.toList ++ d :: ds) := by
    rw [← htail, inner, hmark]
    simp only [List.append_assoc, List.cons_append, List.nil_append]
  have hbound : t.arguments.length ≤ (d :: ds).length := by
    rw [← htail, List.length_append]
    exact Nat.le_add_right_of_le (Attribute.length_le_length_textOf t.arguments)
  have hattributes : attributes (d :: ds).length (d :: ds) =
      (t.arguments.map Attribute.raw, t.trail.chars ++ '/' :: '>' :: rest) := by
    generalize (d :: ds).length = bound at hbound
    rw [← htail]
    exact Attribute.attributes_textOf hbound (attribute?_trail t.trail ('>' :: rest))
  have hend : tagEnd? (t.trail.chars ++ '/' :: '>' :: rest) = some rest := by
    simp only [tagEnd?, dropBlanks_append t.trail.isBlank_of_mem (show isBlank '/' = false by decide)]
  rw [List.cons_append, hinner, element?, if_neg (by decide)]
  simp only [takeWhile_append_stop hrun hd, dropWhile_append_stop hrun hd, hattributes, hend,
    Option.map_some, element]
  rw [← String.ofList_toList (s := functionMark ++ t.name), String.toList_append, hmark, List.cons_append]

/-- The element calls the function that the tag names. -/
theorem function?_element (t : Tag) : t.element.function? = some t.name := by
  rw [Element.function?, element, String.toList_append, isPrefixOf?_append, Option.map_some,
    String.ofList_toList]

end Tag

/-! ### Scans of a plan -/

/-- Tags as they are written, with the blanks behind the last. -/
def bodyOf (tags : List Tag) (last : Gap) : List Char := tags.flatMap Tag.text ++ last.chars

/-- A plan as it is written. -/
def planText (tags : List Tag) (last : Gap) : List Char :=
  "<plan>".toList ++ bodyOf tags last ++ "</plan>".toList

theorem planText_eq (tags : List Tag) (last : Gap) :
    planText tags last = "<plan>".toList ++ bodyOf tags last ++ "</plan>".toList := rfl

theorem bodyOf_cons (t : Tag) (tags : List Tag) (last : Gap) :
    bodyOf (t :: tags) last = t.text ++ bodyOf tags last := by
  rw [bodyOf, List.flatMap_cons, List.append_assoc, bodyOf]

/-- Neither the end of a plan nor a comment is where a tag starts. -/
theorem isPrefixOf?_tag {m : Char} (h : m ≠ 'f') (ms : List Char) (t : Tag) (rest : List Char) :
    ('<' :: m :: ms).isPrefixOf? ('<' :: (t.inner ++ rest)) = none := by
  have hinner : t.inner ++ rest = 'f' :: (t.inner.tail ++ rest) := rfl
  simp [hinner, List.isPrefixOf?, h]

/-! #### The end of the plan -/

theorem splitFirst?_tag (t : Tag) (rest : List Char) :
    splitFirst? "</plan>".toList (t.text ++ rest) =
      (splitFirst? "</plan>".toList rest).map (Prod.map (t.text ++ ·) id) := by
  -- the only `<` of a tag is its first character, and it is not followed by a slash
  change splitFirst? ('<' :: '/' :: "plan>".toList) _ = (splitFirst? ('<' :: '/' :: "plan>".toList) _).map _
  rw [Tag.text, List.append_assoc, splitFirst?_append t.before.lt_not_mem, List.cons_append, splitFirst?,
    isPrefixOf?_tag (by decide), splitFirst?_append t.lt_not_mem_inner, Option.map_map, Option.map_map]
  refine congrArg (Option.map · _) (funext fun found => ?_)
  simp [Function.comp, Prod.map]

/-- The plan ends at the first `</plan>`, which stands in none of its tags. -/
theorem splitFirst?_bodyOf (tags : List Tag) (last : Gap) (after : List Char) :
    splitFirst? "</plan>".toList (bodyOf tags last ++ ("</plan>".toList ++ after)) =
      some (bodyOf tags last, after) := by
  induction tags with
  | nil =>
    change splitFirst? ('<' :: "/plan>".toList) (last.chars ++ ('<' :: "/plan>".toList ++ after)) =
      some (last.chars, after)
    rw [splitFirst?_append last.lt_not_mem, splitFirst?_mark, Option.map_some, Prod.map_apply,
      List.append_nil, id]
  | cons t tags ih =>
    rw [bodyOf_cons, List.append_assoc, splitFirst?_tag, ih, Option.map_some, Prod.map_apply, id]

/-! #### Comments -/

theorem comment?_cons_ne {c : Char} (h : c ≠ '<') (cs : List Char) : comment? (c :: cs) = none := by
  have hmark : "<!--".toList = '<' :: "!--".toList := rfl
  rw [comment?, hmark, isPrefixOf?_cons_ne h]

theorem comment?_tag (t : Tag) (rest : List Char) : comment? ('<' :: (t.inner ++ rest)) = none := by
  have hmark : "<!--".toList = '<' :: '!' :: "--".toList := rfl
  rw [comment?, hmark, isPrefixOf?_tag (by decide)]

theorem declined_comment? {part : List Char} (h : '<' ∉ part) (rest : List Char) :
    Declined comment? part rest :=
  declined_of_forall_mem (fun _ hc => comment?_cons_ne fun he => h (he ▸ hc)) rest

/-- There is no comment in a plan that was written. -/
theorem dropComments_bodyOf (tags : List Tag) (last : Gap) :
    dropComments (bodyOf tags last) = bodyOf tags last := by
  induction tags with
  | nil =>
    change dropComments last.chars = last.chars
    have h : replaceFound comment? (fun _ => []) (last.chars ++ []) = last.chars ++ [] :=
      replaceFound_append_plain (declined_comment? last.lt_not_mem [])
    rwa [List.append_nil] at h
  | cons t tags ih =>
    rw [dropComments] at ih ⊢
    rw [bodyOf_cons, Tag.text, List.append_assoc, List.cons_append,
      replaceFound_append_plain (declined_comment? t.before.lt_not_mem _),
      replaceFound_cons_none (comment?_tag t _),
      replaceFound_append_plain (declined_comment? t.lt_not_mem_inner _), ih]

/-! #### Elements -/

theorem declined_element? {part : List Char} (h : '<' ∉ part) (rest : List Char) :
    Declined element? part rest := by
  refine declined_of_forall_mem (fun c hc cs => ?_) rest
  rw [element?]
  rintro c' cs' he
  exact h ((List.cons.inj he).1 ▸ hc)

/-- The elements of a plan are those of its tags. -/
theorem findAll_bodyOf (tags : List Tag) (last : Gap) :
    findAll element? (bodyOf tags last) = tags.map Tag.element := by
  induction tags with
  | nil =>
    change findAll element? last.chars = []
    simpa [findAll, pieces, piecesAfter] using findAll_append_plain (declined_element? last.lt_not_mem [])
  | cons t tags ih =>
    rw [bodyOf_cons, Tag.text, List.append_assoc,
      findAll_append_plain (declined_element? t.before.lt_not_mem _),
      findAll_append_found (List.cons_ne_nil _ _) (t.element?_text _), ih, List.map_cons]

/-! #### What stands around a plan -/

theorem planAt?_planText (tags : List Tag) (last : Gap) (after : List Char) :
    planAt? (planText tags last ++ after) = some (bodyOf tags last, after) := by
  have htext : planText tags last ++ after =
      "<plan".toList ++ '>' :: (bodyOf tags last ++ ("</plan>".toList ++ after)) := by
    rw [planText_eq, List.append_assoc, List.append_assoc]
    rfl
  have hblanks : ∀ cs, dropBlanks ('>' :: cs) = '>' :: cs := fun _ => rfl
  rw [htext, planAt?, isPrefixOf?_append]
  simp only [hblanks, splitFirst?_bodyOf, Option.getD_some]

/-- No plan starts before the one that was written, not even one that goes on into it. -/
theorem declined_planAt? {before : List Char} (h : ¬ "<plan".toList <:+: before) (cs : List Char) :
    Declined planAt? before ('<' :: cs) := by
  intro s hs hne
  have hnone : ¬"<plan".toList <+: s ++ '<' :: cs := fun hp =>
    h ((prefix_of_prefix_append_cons (by decide) hne hp).isInfix.trans hs.isInfix)
  rw [planAt?, isPrefixOf?_eq_none_iff.mpr hnone]

/-- **The elements of a plan that was written are those of its tags**, whatever stands around it. -/
theorem planElements?_planText {before : String} (h : ¬ "<plan".toList <:+: before.toList) (tags : List Tag)
    (last : Gap) (after : String) :
    planElements? (before ++ .ofList (planText tags last) ++ after) = some (tags.map Tag.element) := by
  have hplan : planText tags last ++ after.toList = '<' :: ((planText tags last).tail ++ after.toList) := rfl
  have hbody : planBody? (before.toList ++ (planText tags last ++ after.toList)) = some (bodyOf tags last) := by
    rw [planBody?, hplan, findAll_append_plain (declined_planAt? h _), ← hplan,
      findAll_append_found (by simp [planText_eq]) (planAt?_planText tags last after.toList), List.head?_cons]
  rw [planElements?, String.toList_append, String.toList_append, String.toList_ofList, List.append_assoc, hbody,
    Option.map_some, dropComments_bodyOf, findAll_bodyOf]

end Planner

end Orchestration
