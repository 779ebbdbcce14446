import Orchestration.Planner.Markup
import Orchestration.Proofs.Scanning

/-!
# Values as markup writes them

Markup writes a value character by character, each as it is or as its entity. Which entities are used is up
to whoever writes: one that writes only the entities that it must, one that writes all five, and any in
between give the same value back.

* `Entity`, `Sign` — a character as it is written, and `Sign.char`, what it stands for.
* `Sign.Fits` — the signs that may stand between quotes.
* `replaceAll_entity` — replacing one entity decodes its signs and leaves the others as they are.
* `unescape_textOf` — the five replacements, one after another, give back what was written.
* `exists_written` — every value can be written between either quotes.
-/

namespace Orchestration.Planner

open Text

/-- A character that has an entity. -/
inductive Entity where
  | lt
  | gt
  | quot
  | apos
  | amp
  deriving DecidableEq

namespace Entity

/-- The character that the entity stands for. -/
def char : Entity → Char
  | lt => '<'
  | gt => '>'
  | quot => '"'
  | apos => '\''
  | amp => '&'

/-- The name of the entity. -/
def name : Entity → List Char
  | lt => ['l', 't']
  | gt => ['g', 't']
  | quot => ['q', 'u', 'o', 't']
  | apos => ['a', 'p', 'o', 's']
  | amp => ['a', 'm', 'p']

/-- The entity as it is written. -/
def text (e : Entity) : List Char := '&' :: e.name ++ [';']

theorem text_ne_nil (e : Entity) : e.text ≠ [] := List.cons_ne_nil _ _

/-- Only the first character of an entity is one at which an entity can start. -/
theorem amp_not_mem_rest (e : Entity) : '&' ∉ e.name ++ [';'] := by
  cases e <;> decide

/-- No entity starts another, whatever follows. -/
theorem isPrefixOf?_text_ne {e e' : Entity} (h : e ≠ e') (rest : List Char) :
    e.text.isPrefixOf? (e'.text ++ rest) = none := by
  cases e <;> cases e' <;> first | exact absurd rfl h | rfl

end Entity

/-- A character as it is written in a value. -/
inductive Sign where
  /-- as it is -/
  | plain (c : Char)
  /-- as its entity -/
  | entity (e : Entity)
  deriving DecidableEq

namespace Sign

/-- What is written. -/
def text : Sign → List Char
  | plain c => [c]
  | entity e => e.text

/-- What it stands for. -/
def char : Sign → Char
  | plain c => c
  | entity e => e.char

/-- The sign after one entity was decoded. -/
def decode (e : Entity) : Sign → Sign
  | plain c => plain c
  | entity e' => if e' = e then plain e.char else entity e'

/-- Whether a sign may stand between quotes: the characters that would end the value, start a tag or start an
entity have to be written as entities. -/
def Fits (quote : Char) : Sign → Prop
  | plain c => c ≠ quote ∧ c ≠ '<' ∧ c ≠ '&'
  | entity _ => True

instance (quote : Char) : (s : Sign) → Decidable (s.Fits quote)
  | plain c => inferInstanceAs (Decidable (c ≠ quote ∧ c ≠ '<' ∧ c ≠ '&'))
  | entity _ => inferInstanceAs (Decidable True)

/-- Signs as they are written, one after another. -/
def textOf (signs : List Sign) : List Char := signs.flatMap text

/-- What signs stand for. -/
def charsOf (signs : List Sign) : List Char := signs.map char

theorem textOf_cons (s : Sign) (signs : List Sign) : textOf (s :: signs) = s.text ++ textOf signs :=
  List.flatMap_cons

/-- Between quotes there is no quote and no start of a tag. -/
theorem not_mem_text {quote : Char} {s : Sign} (h : s.Fits quote) (hq : quote = '"' ∨ quote = '\'') :
    quote ∉ s.text ∧ '<' ∉ s.text := by
  cases s with
  | plain c => exact ⟨by simpa [text] using h.1.symm, by simpa [text] using h.2.1.symm⟩
  | entity e => rcases hq with rfl | rfl <;> cases e <;> decide

theorem not_mem_textOf {quote : Char} {signs : List Sign} (h : ∀ s ∈ signs, s.Fits quote)
    (hq : quote = '"' ∨ quote = '\'') : quote ∉ textOf signs ∧ '<' ∉ textOf signs := by
  simp only [textOf, List.mem_flatMap, not_exists, not_and]
  exact ⟨fun s hs => (not_mem_text (h s hs) hq).1, fun s hs => (not_mem_text (h s hs) hq).2⟩

/-! ### One entity -/

/-- The recogniser of an entity. -/
def entityAt? (e : Entity) (cs : List Char) : Option (Unit × List Char) :=
  (e.text.isPrefixOf? cs).map ((), ·)

theorem entityAt?_cons_ne (e : Entity) {c : Char} (h : c ≠ '&') (cs : List Char) :
    entityAt? e (c :: cs) = none := by
  rw [entityAt?, Entity.text, List.cons_append, isPrefixOf?_cons_ne h, Option.map_none]

/-- A sign is decoded or left as it is, and what follows it is scanned. -/
theorem replaceFound_text (e : Entity) {s : Sign} (h : s ≠ plain '&') (rest : List Char) :
    replaceFound (entityAt? e) (fun _ => [e.char]) (s.text ++ rest) =
      (s.decode e).text ++ replaceFound (entityAt? e) (fun _ => [e.char]) rest := by
  have hplain : ∀ c, c ≠ '&' → ∀ cs, entityAt? e (c :: cs) = none := fun c hc cs =>
    entityAt?_cons_ne e hc cs
  cases s with
  | plain c => exact replaceFound_cons_none (hplain c (fun hc => h (by rw [hc])) rest)
  | entity e' =>
    rw [decode]
    split
    · next he =>
      subst he
      exact replaceFound_append_found e'.text_ne_nil (by
        rw [entityAt?, text, isPrefixOf?_append, Option.map_some])
    · next he =>
      -- another entity: it is not found at its first character, and nothing can be found at the others
      have hfirst : entityAt? e (e'.text ++ rest) = none := by
        rw [entityAt?, Entity.isPrefixOf?_text_ne (Ne.symm he), Option.map_none]
      have hrest : Declined (entityAt? e) (e'.name ++ [';']) rest :=
        declined_of_forall_mem (fun c hc => hplain c fun hamp => e'.amp_not_mem_rest (hamp ▸ hc)) rest
      change replaceFound (entityAt? e) _ (e'.text ++ rest) = e'.text ++ _
      rw [Entity.text, List.cons_append, List.cons_append] at hfirst ⊢
      rw [replaceFound_cons_none hfirst, replaceFound_append_plain hrest, List.cons_append]

/-- **Replacing an entity decodes the signs that are written so**, and no others. -/
theorem replaceAll_entity (e : Entity) {old new : String} (hold : old.toList = e.text)
    (hnew : new.toList = [e.char]) {signs : List Sign} (h : ∀ s ∈ signs, s ≠ plain '&') :
    replaceAll old new (.ofList (textOf signs)) = .ofList (textOf (signs.map (decode e))) := by
  rw [replaceAll, hold, hnew, String.toList_ofList]
  congr 1
  change replaceFound (entityAt? e) _ _ = _
  induction signs with
  | nil => rfl
  | cons s signs ih =>
    rw [textOf_cons, List.map_cons, textOf_cons, replaceFound_text e (h s List.mem_cons_self),
      ih fun s' hs' => h s' (List.mem_cons_of_mem _ hs')]

/-! ### All five -/

/-- Only the last replacement, that of `&amp;`, makes a character at which an entity could start. -/
theorem decode_ne {e : Entity} (he : e ≠ .amp) {s : Sign} (h : s ≠ plain '&') :
    s.decode e ≠ plain '&' := by
  cases s with
  | plain c => exact h
  | entity e' =>
    rw [decode]
    split
    · cases e <;> first | exact absurd rfl he | decide
    · exact Sign.noConfusion

theorem forall_map_decode_ne {e : Entity} (he : e ≠ .amp) {signs : List Sign}
    (h : ∀ s ∈ signs, s ≠ plain '&') : ∀ s ∈ signs.map (decode e), s ≠ plain '&' := by
  intro s hs
  obtain ⟨s', hs', rfl⟩ := List.mem_map.mp hs
  exact decode_ne he (h s' hs')

/-- A sign that went through all five is the plain character it stands for. -/
theorem decode_all (s : Sign) :
    ((((s.decode .lt).decode .gt).decode .quot).decode .apos).decode .amp = plain s.char := by
  cases s with
  | plain c => rfl
  | entity e => cases e <;> rfl

theorem map_decode_all (signs : List Sign) :
    ((((signs.map (decode .lt)).map (decode .gt)).map (decode .quot)).map (decode .apos)).map
        (decode .amp) = signs.map fun s => plain s.char := by
  simp only [List.map_map]
  exact List.map_congr_left fun s _ => decode_all s

theorem textOf_map_plain (signs : List Sign) : textOf (signs.map fun s => plain s.char) = charsOf signs := by
  rw [textOf, List.flatMap_map, charsOf]
  exact List.map_eq_flatMap.symm

/-- **Unescaping gives back what was written.** -/
theorem unescape_textOf {signs : List Sign} (h : ∀ s ∈ signs, s ≠ plain '&') :
    unescape (.ofList (textOf signs)) = .ofList (charsOf signs) := by
  have h₁ := forall_map_decode_ne (e := .lt) (by decide) h
  have h₂ := forall_map_decode_ne (e := .gt) (by decide) h₁
  have h₃ := forall_map_decode_ne (e := .quot) (by decide) h₂
  have h₄ := forall_map_decode_ne (e := .apos) (by decide) h₃
  rw [unescape, replaceAll_entity .lt (by rfl) (by rfl) h, replaceAll_entity .gt (by rfl) (by rfl) h₁,
    replaceAll_entity .quot (by rfl) (by rfl) h₂, replaceAll_entity .apos (by rfl) (by rfl) h₃,
    replaceAll_entity .amp (by rfl) (by rfl) h₄]
  rw [map_decode_all, textOf_map_plain]

/-! ### Writing -/

/-- The sign that writes a character, as an entity wherever there is one. -/
def ofChar : Char → Sign
  | '<' => entity .lt
  | '>' => entity .gt
  | '"' => entity .quot
  | '\'' => entity .apos
  | '&' => entity .amp
  | c => plain c

/-- Every value can be written between quotes of either kind. -/
theorem exists_written {quote : Char} (hq : quote = '"' ∨ quote = '\'') (value : List Char) :
    ∃ signs, (∀ s ∈ signs, Fits quote s) ∧ charsOf signs = value := by
  refine ⟨value.map ofChar, fun s hs => ?_, ?_⟩
  · obtain ⟨c, -, rfl⟩ := List.mem_map.mp hs
    unfold ofChar
    split
    case h_6 => rcases hq with rfl | rfl <;> exact ⟨by assumption, by assumption, by assumption⟩
    all_goals trivial
  · rw [charsOf, List.map_map]
    refine (List.map_congr_left fun c _ => ?_).trans value.map_id
    change (ofChar c).char = c
    unfold ofChar
    split <;> rfl

end Sign

end Orchestration.Planner
