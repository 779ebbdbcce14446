import Orchestration.Proofs.MarkupValues

/-!
# Entities decoded once

Five replacements, one after another, decode the entities of a value. Each of them leaves a text that is searched
again, so it might make an entity that nobody wrote. None does: what is put in is part of no entity, except the
ampersand, and that is put in last. So the five together decode what a single look at the value finds.

* `ReadAs` — a text read once from the left, an entity wherever one starts; `ReadAs.eq_iff`, that there is one reading.
* `ReadAs.replaceFound_eq` — a replacement decodes one entity wherever it is read.
* `ReadAs.decoded` — after it the text is read as before, but for this entity.
* `unescape_once` — unescaping decodes what one reading finds.
-/

namespace Orchestration.Planner

open Text

/-! ### Entities in a text -/

namespace Entity

/-- A text in which one entity gives way to its character, wherever it stands. -/
def replaceIn (e : Entity) (value : String) : String :=
  replaceAll (.ofList e.text) (.ofList [e.char]) value

/-- An entity starts with the ampersand. -/
theorem text_prefix_cons {e : Entity} {c : Char} {rest : List Char} :
    e.text <+: c :: rest ↔ '&' = c ∧ e.name ++ [';'] <+: rest := by
  rw [text, List.cons_append, List.cons_prefix_cons]

/-- What stands behind the ampersand of an entity is neither an ampersand nor put in for any. -/
theorem ne_of_mem_rest (e : Entity) {other : Entity} {c : Char} (h : c ∈ other.name ++ [';']) :
    c ≠ '&' ∧ c ≠ e.char := by
  refine ⟨fun hc => other.amp_not_mem_rest (hc ▸ h), fun hc => ?_⟩
  subst hc
  revert h
  cases e <;> cases other <;> decide

/-- Two entities that start the same text are one. -/
theorem eq_of_prefix {e other : Entity} {cs : List Char} (h : e.text <+: cs) (h' : other.text <+: cs) : e = other := by
  by_contra hne
  obtain ⟨rest, rfl⟩ := h'
  exact isPrefixOf?_eq_none_iff.mp (isPrefixOf?_text_ne hne rest) h

end Entity

/-! ### One reading -/

/-- **A text read once**, from the left: wherever an entity starts it is read as a whole, and every other character
is read as it is. -/
inductive ReadAs : List Char → List Sign → Prop where
  /-- nothing is left to read -/
  | nil : ReadAs [] []
  /-- an entity starts here -/
  | entity (e : Entity) {rest : List Char} {signs : List Sign} (later : ReadAs rest signs) :
      ReadAs (e.text ++ rest) (.entity e :: signs)
  /-- no entity starts here -/
  | plain (c : Char) {rest : List Char} {signs : List Sign} (unmarked : ∀ e : Entity, ¬e.text <+: c :: rest)
      (later : ReadAs rest signs) : ReadAs (c :: rest) (.plain c :: signs)

namespace ReadAs

open Sign

variable {cs : List Char} {signs : List Sign}

/-- What is read is the text. -/
theorem textOf_eq (h : ReadAs cs signs) : textOf signs = cs := by
  induction h with
  | nil => rfl
  | entity e _ ih => rw [textOf_cons, ih, Sign.text]
  | plain c _ _ ih => rw [textOf_cons, ih, Sign.text, List.singleton_append]

theorem unique {other : List Sign} (h : ReadAs cs signs) (h' : ReadAs cs other) : other = signs := by
  induction h generalizing other with
  | nil =>
    generalize hcs : [] = cs at h'
    cases h' with
    | nil => rfl
    | entity e later => exact absurd (List.append_eq_nil_iff.mp hcs.symm).1 e.text_ne_nil
    | plain c unmarked later => cases hcs
  | @entity e rest signs _ ih =>
    generalize hcs : e.text ++ rest = cs at h'
    cases h' with
    | nil => exact absurd (List.append_eq_nil_iff.mp hcs).1 e.text_ne_nil
    | entity other later =>
      obtain rfl := Entity.eq_of_prefix (hcs ▸ List.prefix_append _ _) (List.prefix_append other.text _)
      obtain rfl := List.append_cancel_left hcs
      rw [ih later]
    | plain c unmarked later => exact absurd (hcs ▸ List.prefix_append _ _) (unmarked e)
  | @plain c rest signs unmarked _ ih =>
    generalize hcs : c :: rest = cs at h'
    cases h' with
    | nil => cases hcs
    | entity e later => exact absurd (hcs ▸ List.prefix_append _ _) (unmarked e)
    | plain c' unmarked' later =>
      obtain ⟨rfl, rfl⟩ := List.cons.inj hcs
      rw [ih later]

/-- Every text is read. -/
theorem exists_readAs (cs : List Char) : ∃ signs, ReadAs cs signs := by
  induction hlength : cs.length using Nat.strong_induction_on generalizing cs with
  | _ n ih =>
    cases cs with
    | nil => exact ⟨[], .nil⟩
    | cons c cs =>
      rw [List.length_cons] at hlength
      by_cases hentity : ∃ e : Entity, e.text <+: c :: cs
      · obtain ⟨e, rest, hrest⟩ := hentity
        have hshorter : rest.length < n := by
          have hall := congrArg List.length hrest
          have hpos := List.length_pos_iff.mpr e.text_ne_nil
          rw [List.length_append, List.length_cons] at hall
          omega
        obtain ⟨signs, hsigns⟩ := ih _ hshorter rest rfl
        rw [← hrest]
        exact ⟨_, .entity e hsigns⟩
      · obtain ⟨signs, hsigns⟩ := ih _ (by omega) cs rfl
        exact ⟨_, .plain c (not_exists.mp hentity) hsigns⟩

/-- **There is one reading** of a text. -/
theorem eq_iff (h : ReadAs cs signs) (other : List Sign) : ReadAs cs other ↔ other = signs := by
  refine ⟨h.unique, ?_⟩
  rintro rfl
  exact h

/-- A text without entities is read as it is. -/
theorem of_unmarked (h : ∀ e : Entity, ¬e.text <:+: cs) : ReadAs cs (cs.map .plain) := by
  induction cs with
  | nil => exact .nil
  | cons c cs ih =>
    refine .plain c (fun e he => h e he.isInfix) (ih fun e he => h e ?_)
    exact he.trans (List.suffix_cons c cs).isInfix

/-! ### One replacement -/

/-- **Replacing an entity decodes it** wherever it is read, and leaves all else as it is. -/
theorem replaceFound_eq (h : ReadAs cs signs) (e : Entity) :
    replaceFound (entityAt? e) (fun _ => [e.char]) cs = textOf (signs.map (decode e)) := by
  induction h with
  | nil => rfl
  | entity e' _ ih =>
    have hsign := replaceFound_text e (s := .entity e') Sign.noConfusion
    rw [List.map_cons, textOf_cons, ← ih]
    exact hsign _
  | @plain c rest signs unmarked _ ih =>
    have hdeclined : entityAt? e (c :: rest) = none := by
      rw [entityAt?, isPrefixOf?_eq_none_iff.mpr (unmarked e), Option.map_none]
    rw [replaceFound_cons_none hdeclined, ih]
    rfl

theorem toList_replaceIn {value : String} (h : ReadAs value.toList signs) (e : Entity) :
    (e.replaceIn value).toList = textOf (signs.map (decode e)) := by
  rw [Entity.replaceIn, replaceAll, String.toList_ofList, String.toList_ofList, String.toList_ofList,
    ← h.replaceFound_eq e]
  rfl

/-- Characters that no replacement puts in, and at which no entity starts, were there before it. -/
theorem prefix_of_prefix_decoded {e : Entity} {mark : List Char} (hmark : ∀ c ∈ mark, c ≠ '&' ∧ c ≠ e.char)
    (h : mark <+: textOf (signs.map (decode e))) : mark <+: textOf signs := by
  induction mark generalizing signs with
  | nil => exact List.nil_prefix
  | cons m mark ih =>
    obtain ⟨⟨hamp, hput⟩, hrest⟩ := List.forall_mem_cons.mp hmark
    cases signs with
    | nil => exact h
    | cons s signs =>
      rw [List.map_cons, textOf_cons] at h
      rw [textOf_cons]
      cases s with
      | plain c =>
        obtain ⟨hsame, hlater⟩ := List.cons_prefix_cons.mp h
        exact List.cons_prefix_cons.mpr ⟨hsame, ih hrest hlater⟩
      | entity other =>
        -- the first of the characters would be put in, or be an ampersand
        rw [decode] at h
        split at h
        · exact absurd (List.cons_prefix_cons.mp h).1 hput
        · exact absurd (List.cons_prefix_cons.mp h).1 hamp

/-- **After a replacement** the text is read as before, with the one entity decoded, unless it is the ampersand that
is put in: no entity comes about that was not there. -/
theorem decoded (h : ReadAs cs signs) {e : Entity} (he : e ≠ .amp) :
    ReadAs (textOf (signs.map (decode e))) (signs.map (decode e)) := by
  induction h with
  | nil => exact .nil
  | @entity other rest signs _ ih =>
    rw [List.map_cons, textOf_cons, decode]
    split
    · refine .plain e.char (fun marked hmarked => ?_) ih
      have hamp := (Entity.text_prefix_cons.mp hmarked).1
      cases e <;> first | exact absurd rfl he | exact absurd hamp (by decide)
    · exact .entity other ih
  | @plain c rest signs unmarked hlater ih =>
    rw [List.map_cons, textOf_cons]
    refine .plain c (fun marked hmarked => unmarked marked ?_) ih
    obtain ⟨hamp, hrest⟩ := Entity.text_prefix_cons.mp hmarked
    have hbefore := prefix_of_prefix_decoded (fun c hc => Entity.ne_of_mem_rest e hc) hrest
    rw [hlater.textOf_eq] at hbefore
    exact Entity.text_prefix_cons.mpr ⟨hamp, hbefore⟩

/-- So is a value after any of the other four replacements, in whatever order. -/
theorem replaced {value : String} (h : ReadAs value.toList signs) {done : List Entity} (hdone : .amp ∉ done) :
    ReadAs (done.foldl (fun value e => e.replaceIn value) value).toList
      (done.foldl (fun signs e => signs.map (decode e)) signs) := by
  induction done generalizing value signs with
  | nil => exact h
  | cons e done ih =>
    obtain ⟨he, hrest⟩ := not_or.mp (mt List.mem_cons.mpr hdone)
    refine ih ?_ hrest
    rw [h.toList_replaceIn e]
    exact h.decoded (Ne.symm he)

end ReadAs

/-! ### All five -/

theorem unescape_eq (value : String) :
    unescape value = Entity.amp.replaceIn
      ([.lt, .gt, .quot, .apos].foldl (fun value e => Entity.replaceIn e value) value) := rfl

/-- **Unescaping decodes once.** A value is read in one way, and what comes of the five replacements is what the signs
of this reading stand for. Whichever of them were made before that of `&amp;`, the text they left is read as the value
was, but for the entities they decoded, so none of them makes an entity for another; and a value without entities
stays as it is. -/
theorem unescape_once (value : String) :
    ∃ signs, (∀ other, ReadAs value.toList other ↔ other = signs) ∧
      unescape value = .ofList (Sign.charsOf signs) ∧
      (∀ done : List Entity, .amp ∉ done →
        ReadAs (done.foldl (fun value e => e.replaceIn value) value).toList
          (done.foldl (fun signs e => signs.map (Sign.decode e)) signs)) ∧
      ((∀ e : Entity, ¬e.text <:+: value.toList) → unescape value = value) := by
  obtain ⟨signs, hsigns⟩ := ReadAs.exists_readAs value.toList
  have hdecoded : unescape value = .ofList (Sign.charsOf signs) := by
    have hfour := hsigns.replaced (show .amp ∉ [Entity.lt, .gt, .quot, .apos] by decide)
    apply String.toList_injective
    rw [unescape_eq, hfour.toList_replaceIn .amp, String.toList_ofList, ← Sign.textOf_map_plain,
      ← Sign.map_decode_all]
    rfl
  refine ⟨signs, hsigns.eq_iff, hdecoded, fun done hdone => hsigns.replaced hdone, fun hunmarked => ?_⟩
  have hchars : Sign.charsOf (value.toList.map .plain) = value.toList := by
    rw [Sign.charsOf, List.map_map]
    exact List.map_id' value.toList
  rw [hdecoded, ← hsigns.unique (.of_unmarked hunmarked), hchars, String.ofList_toList]

/-- What an ampersand is put in for starts no entity. -/
example : unescape "&amp;lt; &lt;&amp;amp;&#38; &amp" = "&lt; <&amp;&#38; &amp" := by decide

end Orchestration.Planner
