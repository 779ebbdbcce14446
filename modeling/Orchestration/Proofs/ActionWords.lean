import Orchestration.Proofs.ActionDocuments
import Orchestration.Proofs.JsonLayout

/-!
# Actions word by word

An action is written as a document of signs and literals. What an answer is taken apart by — marks, backticks, ends of
lines, braces — stands in such a document only as it stands in the texts of the action.

* `Step.escape_cases`, `Step.mem_escape` — a character of a literal is written as it is, or by others that mean nothing to
  an answer.
* `Step.Word`, `Step.actionWords` — the document of an action in its words.
* `Step.infix_of_infix_words`, `Step.filter_words`, `Step.feed_not_mem_words`, `Step.unbraced_words` — marks, backticks,
  ends of lines and braces in it.
* `Step.Action.read?_document` — the document is read as the action.
-/

namespace Orchestration

/-! ### Dictionaries of texts -/

theorem insertEntry_map {α β : Type} (f : α → β) (name : String) (value : α) (entries : List (String × α)) :
    insertEntry name (f value) (entries.map fun e => (e.1, f e.2)) =
      (insertEntry name value entries).map fun e => (e.1, f e.2) := by
  induction entries with
  | nil => rfl
  | cons e entries ih =>
    obtain ⟨first, held⟩ := e
    rw [List.map_cons, insertEntry, insertEntry, ih]
    split
    · rfl
    · split <;> rfl

namespace Dictionary

variable {α β : Type}

/-- What is made of each entry is made of those that stay. -/
theorem ofList_map (f : α → β) (entries : List (String × α)) :
    ofList (entries.map fun e => (e.1, f e.2)) = (ofList entries).map fun _ => f := by
  suffices h : ∀ d : Dictionary α, (entries.map fun e => (e.1, f e.2)).foldl (fun d e => d.insert e.1 e.2)
      (d.map fun _ => f) = (entries.foldl (fun d e => d.insert e.1 e.2) d).map fun _ => f from h ∅
  induction entries with
  | nil => exact fun _ => rfl
  | cons e entries ih =>
    intro d
    have hinsert : (d.map fun _ => f).insert e.1 (f e.2) = (d.insert e.1 e.2).map fun _ => f :=
      ext_entries (insertEntry_map f e.1 e.2 d.entries)
    rw [List.map_cons, List.foldl_cons, List.foldl_cons, hinsert, ih]

end Dictionary

namespace Step

open Text Json

/-! ### Characters of literals -/

/-- A character by which an answer is taken apart: it starts a mark, fences, ends a line or is a brace. -/
def Structural (c : Char) : Prop := c = '[' ∨ c = '\x60' ∨ c = '\n' ∨ isBrace c = true

instance : DecidablePred Structural := fun _ => inferInstanceAs (Decidable (_ ∨ _))

/-- A text without structural characters. -/
def Plain (cs : List Char) : Prop := ∀ c ∈ cs, ¬Structural c

instance (cs : List Char) : Decidable (Plain cs) := List.decidableBAll _ cs

theorem not_structural_hexDigit : ∀ n < 16, ¬Structural (hexDigit n) := by decide

/-- **A character of a literal** is written as it is, or behind a backslash and without structural characters. -/
theorem escape_cases (c : Char) :
    escape c = [c] ∧ c ≠ '\n' ∨ (escape c).head? = some '\\' ∧ Plain (escape c) := by
  rw [escape.eq_def]
  split
  · exact .inr ⟨rfl, by decide⟩
  · exact .inr ⟨rfl, by decide⟩
  · exact .inr ⟨rfl, by decide⟩
  · exact .inr ⟨rfl, by decide⟩
  · exact .inr ⟨rfl, by decide⟩
  · exact .inr ⟨rfl, by decide⟩
  · exact .inr ⟨rfl, by decide⟩
  · next hfeed _ _ _ _ =>
    split
    · have hunit : Plain ['\\', 'u', '0', '0'] := by decide
      have hdigits : Plain [hexDigit (c.toNat / 16), hexDigit (c.toNat % 16)] := by
        intro d hd
        rcases List.mem_pair.mp hd with rfl | rfl
        · exact not_structural_hexDigit _ (by omega)
        · exact not_structural_hexDigit _ (by omega)
      exact .inr ⟨rfl, List.forall_mem_append.mpr ⟨hunit, hdigits⟩⟩
    · exact .inl ⟨rfl, hfeed⟩

variable {cs mark rest : List Char} {c d : Char}

/-- So a structural character stands only for itself, and the end of a line does not even do that. -/
theorem mem_escape (h : d ∈ escape c) : d = c ∧ c ≠ '\n' ∨ ¬Structural d := by
  rcases escape_cases c with ⟨hplain, hfeed⟩ | ⟨-, hplain⟩
  · rw [hplain, List.mem_singleton] at h
    exact .inl ⟨h, hfeed⟩
  · exact .inr (hplain d h)

theorem feed_not_mem_literal (cs : List Char) : '\n' ∉ cs.flatMap escape := by
  intro h
  obtain ⟨c, -, hc⟩ := List.mem_flatMap.mp h
  rcases mem_escape hc with ⟨hsame, hfeed⟩ | hplain
  · exact hfeed hsame.symm
  · exact hplain (by decide)

theorem unbraced_literal (h : Unbraced cs) : Unbraced (cs.flatMap escape) := by
  intro d hd
  obtain ⟨c, hc, hd⟩ := List.mem_flatMap.mp hd
  rcases mem_escape hd with ⟨rfl, -⟩ | hplain
  · exact h d hc
  · exact Bool.eq_false_iff.mpr fun hbrace => hplain (.inr (.inr (.inr hbrace)))

/-- Backticks are the same in a literal as in its text. -/
theorem filter_literal (cs : List Char) :
    (cs.flatMap escape).filter (· ≠ '\x60') = (cs.filter (· ≠ '\x60')).flatMap escape := by
  induction cs with
  | nil => rfl
  | cons c cs ih =>
    rw [List.flatMap_cons, List.filter_append, ih]
    by_cases hc : c = '\x60'
    · subst hc
      have hnone : (escape '\x60').filter (· ≠ '\x60') = [] := by decide
      rw [hnone, List.filter_cons_of_neg (by simp), List.nil_append]
    · have hkept : (escape c).filter (· ≠ '\x60') = escape c := by
        refine List.filter_eq_self.mpr fun d hd => decide_eq_true ?_
        rcases mem_escape hd with ⟨rfl, -⟩ | hplain
        · exact hc
        · exact fun htick => hplain (.inr (.inl htick))
      rw [hkept, List.filter_cons_of_pos (by simpa using hc), List.flatMap_cons]

/-! ### Marks in literals -/

/-- The marks that an answer is taken apart by. -/
def marks : List String := [thoughtMark, actionMark, finalMark]

/-- A mark starts with the only structural character in it, and has no sign of a document. -/
theorem marks_spelled : ∀ mark ∈ marks, mark.toList.head? = some '[' ∧ '\\' ∉ mark.toList ∧ '"' ∉ mark.toList ∧
    Plain mark.toList.tail := by
  decide

theorem prefix_of_prefix_literal (hmark : '\\' ∉ mark) (h : mark <+: cs.flatMap escape) : mark <+: cs := by
  induction cs generalizing mark with
  | nil => exact h
  | cons c cs ih =>
    cases mark with
    | nil => exact List.nil_prefix
    | cons m mark =>
      obtain ⟨hm, hmark⟩ := not_or.mp (mt List.mem_cons.mpr hmark)
      rw [List.flatMap_cons] at h
      rcases escape_cases c with ⟨hplain, -⟩ | ⟨hslash, -⟩
      · rw [hplain, List.singleton_append, List.cons_prefix_cons] at h
        exact List.cons_prefix_cons.mpr ⟨h.1, ih hmark h.2⟩
      · obtain ⟨more, hmore⟩ := List.head?_eq_some_iff.mp hslash
        rw [hmore, List.cons_append, List.cons_prefix_cons] at h
        exact absurd h.1.symm hm

/-- **A mark in a literal** stands in its text. -/
theorem infix_of_infix_literal {mark : String} (hmark : mark ∈ marks) (h : mark.toList <:+: cs.flatMap escape) :
    mark.toList <:+: cs := by
  obtain ⟨hhead, hslash, -, -⟩ := marks_spelled mark hmark
  induction cs with
  | nil => exact h
  | cons c cs ih =>
    rcases escape_cases c with ⟨hplain, -⟩ | ⟨-, hplain⟩
    · have hcons : (c :: cs).flatMap escape = c :: cs.flatMap escape := by rw [List.flatMap_cons, hplain]; rfl
      rw [hcons, List.infix_cons_iff, ← hcons] at h
      rcases h with hp | hi
      · exact (prefix_of_prefix_literal hslash hp).isInfix
      · exact List.infix_cons (ih hi)
    · have hpassed : '[' ∉ escape c := fun hmem => hplain _ hmem (.inl rfl)
      rw [List.flatMap_cons] at h
      exact List.infix_cons (ih (infix_of_infix_append hhead hpassed h))

/-! ### Words -/

/-- A word of a document: a sign or a literal. -/
inductive Word where
  /-- opens an object -/
  | opening
  /-- closes an object -/
  | closing
  /-- stands between a name and its value -/
  | colon
  /-- stands between fields -/
  | comma
  /-- a text between quotes -/
  | literal (s : String)

/-- A word in characters. -/
def Word.chars : Word → List Char
  | .opening => ['\x7b']
  | .closing => ['\x7d']
  | .colon => [':']
  | .comma => [',']
  | .literal s => writeString s

/-- Words in characters. -/
def spell (words : List Word) : List Char := words.flatMap Word.chars

/-- Texts under names. -/
def fieldWords : List (String × String) → List Word
  | [] => []
  | [(name, value)] => [.literal name, .colon, .literal value]
  | (name, value) :: fields => [.literal name, .colon, .literal value, .comma] ++ fieldWords fields

/-- The name of an action and what introduces its arguments. -/
def callWords (name : String) : List Word :=
  [.literal "action", .colon, .literal name, .comma, .literal "action_variables", .colon]

/-- An action and its arguments. -/
def actionWords (name : String) (entries : List (String × String)) : List Word :=
  .opening :: (callWords name ++ .opening :: (fieldWords entries ++ [.closing, .closing]))

/-- The document of an action. -/
def actionJson (name : String) (entries : List (String × String)) : Json :=
  .object [("action", .string name), ("action_variables", .object (entries.map fun e => (e.1, .string e.2)))]

/-- The texts of an action: its name, and the names and values of its arguments. -/
def textsOf (name : String) (entries : List (String × String)) : List String :=
  name :: entries.flatMap fun e => [e.1, e.2]

variable {words later : List Word} {name s : String} {entries : List (String × String)}

@[simp] theorem spell_nil : spell [] = [] := rfl

@[simp] theorem spell_cons (word : Word) (words : List Word) : spell (word :: words) = word.chars ++ spell words := rfl

@[simp] theorem spell_append (words later : List Word) : spell (words ++ later) = spell words ++ spell later :=
  List.flatMap_append

theorem fieldWords_cons (e : String × String) (h : entries ≠ []) :
    fieldWords (e :: entries) = [.literal e.1, .colon, .literal e.2, .comma] ++ fieldWords entries := by
  obtain ⟨name, value⟩ := e
  rw [fieldWords]
  exact h

theorem spell_fieldWords (entries : List (String × String)) :
    writeFields (entries.map fun e => (e.1, .string e.2)) = spell (fieldWords entries) := by
  induction entries with
  | nil => rfl
  | cons e entries ih =>
    cases entries with
    | nil => simp [writeFields, write, fieldWords, Word.chars]
    | cons next entries =>
      rw [fieldWords_cons e (List.cons_ne_nil next entries), spell_append, ← ih]
      simp [writeFields, write, Word.chars]

/-- **The document of an action in its words.** -/
theorem write_actionJson (name : String) (entries : List (String × String)) :
    (actionJson name entries).write = spell (actionWords name entries) := by
  simp [actionJson, write, writeFields, spell_fieldWords, actionWords, callWords, Word.chars]

theorem mem_fieldWords {word : Word} (h : word ∈ fieldWords entries) :
    word = .colon ∨ word = .comma ∨ ∃ e ∈ entries, word = .literal e.1 ∨ word = .literal e.2 := by
  induction entries with
  | nil => cases h
  | cons e entries ih =>
    cases entries with
    | nil =>
      simp only [fieldWords, List.mem_cons, List.not_mem_nil, or_false] at h
      rcases h with rfl | rfl | rfl <;> simp
    | cons next entries =>
      rw [fieldWords_cons e (List.cons_ne_nil next entries), List.mem_append] at h
      rcases h with h | h
      · simp only [List.mem_cons, List.not_mem_nil, or_false] at h
        rcases h with rfl | rfl | rfl | rfl <;> simp
      · refine (ih h).imp_right (Or.imp_right ?_)
        rintro ⟨e, he, hword⟩
        exact ⟨e, List.mem_cons_of_mem _ he, hword⟩

/-- The literals of the document are the names of its fields and the texts of the action. -/
theorem literal_mem_actionWords (h : .literal s ∈ actionWords name entries) :
    s = "action" ∨ s = "action_variables" ∨ s ∈ textsOf name entries := by
  simp only [actionWords, callWords, List.mem_cons, List.mem_append, reduceCtorEq, List.not_mem_nil, or_false,
    false_or, Word.literal.injEq] at h
  rcases h with (rfl | rfl | rfl) | h
  · exact .inl rfl
  · exact .inr (.inr List.mem_cons_self)
  · exact .inr (.inl rfl)
  · refine .inr (.inr (List.mem_cons_of_mem name (List.mem_flatMap.mpr ?_)))
    rcases mem_fieldWords h with hsign | hsign | ⟨e, he, hs | hs⟩
    · cases hsign
    · cases hsign
    · exact ⟨e, he, by simp [Word.literal.inj hs]⟩
    · exact ⟨e, he, by simp [Word.literal.inj hs]⟩

theorem feed_not_mem_words (words : List Word) : '\n' ∉ spell words := by
  intro h
  obtain ⟨word, -, hword⟩ := List.mem_flatMap.mp h
  cases word with
  | literal s =>
    rw [Word.chars, writeString, List.mem_append, List.mem_cons, List.mem_singleton] at hword
    rcases hword with (hquote | hs) | hquote
    · exact absurd hquote (by decide)
    · exact feed_not_mem_literal s.toList hs
    · exact absurd hquote (by decide)
  | _ => exact absurd hword (by decide)

/-- No brace stands in words without braces of their own. -/
theorem unbraced_words (hsigns : .opening ∉ words ∧ .closing ∉ words)
    (h : ∀ s, .literal s ∈ words → Unbraced s.toList) : Unbraced (spell words) := by
  intro c hc
  obtain ⟨word, hword, hc⟩ := List.mem_flatMap.mp hc
  cases word with
  | opening => exact absurd hword hsigns.1
  | closing => exact absurd hword hsigns.2
  | colon => exact (by decide : Unbraced [':']) c hc
  | comma => exact (by decide : Unbraced [',']) c hc
  | literal s =>
    have hquote : Unbraced ['"'] := by decide
    have hstart : Unbraced (['"'] ++ s.toList.flatMap escape) :=
      unbraced_append.mpr ⟨hquote, unbraced_literal (h s hword)⟩
    exact unbraced_append.mpr ⟨hstart, hquote⟩ c hc

/-- **A mark in words** stands in the text of a literal. -/
theorem infix_of_infix_words {mark : String} (hmark : mark ∈ marks) (h : mark.toList <:+: spell words ++ rest) :
    (∃ s, .literal s ∈ words ∧ mark.toList <:+: s.toList) ∨ mark.toList <:+: rest := by
  obtain ⟨hhead, -, hquote, -⟩ := marks_spelled mark hmark
  have hne : mark.toList ≠ [] := fun hnil => by simp [hnil] at hhead
  induction words with
  | nil => exact .inr h
  | cons word words ih =>
    have hothers : (∃ s, .literal s ∈ words ∧ mark.toList <:+: s.toList) ∨ mark.toList <:+: rest →
        (∃ s, .literal s ∈ word :: words ∧ mark.toList <:+: s.toList) ∨ mark.toList <:+: rest :=
      Or.imp_left fun ⟨s, hs, hi⟩ => ⟨s, List.mem_cons_of_mem word hs, hi⟩
    rw [spell_cons, List.append_assoc] at h
    have hstart : mark.toList.head? ≠ some '"' := by rw [hhead]; decide
    cases word with
    | literal s =>
      have hchars : Word.chars (.literal s) ++ (spell words ++ rest) =
          '"' :: (s.toList.flatMap escape ++ '"' :: (spell words ++ rest)) := by simp [Word.chars, writeString]
      rw [hchars] at h
      rcases infix_append_cons (fun hmem => hquote (List.mem_of_mem_tail hmem)) (infix_cons_of_ne hstart hne h) with h | h
      · exact .inl ⟨s, List.mem_cons_self, infix_of_infix_literal hmark h⟩
      · exact hothers (ih (infix_cons_of_ne hstart hne h))
    | _ => exact hothers (ih (infix_of_infix_append hhead (by decide) h))

/-! ### Backticks -/

/-- A text without its backticks. -/
def bare (s : String) : String := .ofList (s.toList.filter (· ≠ '\x60'))

theorem toList_bare (s : String) : (bare s).toList = s.toList.filter (· ≠ '\x60') := String.toList_ofList

theorem tick_not_mem_bare (s : String) : '\x60' ∉ (bare s).toList := by
  rw [toList_bare]
  simp

/-- A text without backticks is left as it is. -/
theorem bare_eq_self_iff : bare s = s ↔ '\x60' ∉ s.toList := by
  rw [← String.toList_inj, toList_bare, List.filter_eq_self]
  constructor
  · intro h hmem
    simpa using h _ hmem
  · intro h c hc
    refine decide_eq_true ?_
    rintro rfl
    exact h hc

/-- An entry without the backticks of its name and value. -/
def bareEntry (e : String × String) : String × String := (bare e.1, bare e.2)

/-- A word without the backticks of its text. -/
def Word.bare : Word → Word
  | .literal s => .literal (Step.bare s)
  | sign => sign

theorem filter_words (words : List Word) : (spell words).filter (· ≠ '\x60') = spell (words.map Word.bare) := by
  induction words with
  | nil => rfl
  | cons word words ih =>
    have hword : word.chars.filter (· ≠ '\x60') = word.bare.chars := by
      cases word with
      | literal s =>
        rw [Word.bare, Word.chars, Word.chars, writeString, writeString, toList_bare, ← filter_literal]
        simp
      | _ => decide
    rw [spell_cons, List.filter_append, ih, hword, List.map_cons, spell_cons]

theorem bare_fieldWords (entries : List (String × String)) :
    (fieldWords entries).map Word.bare = fieldWords (entries.map bareEntry) := by
  induction entries with
  | nil => rfl
  | cons e entries ih =>
    cases entries with
    | nil => rfl
    | cons next entries =>
      have hmapped : (next :: entries).map bareEntry ≠ [] := List.cons_ne_nil _ _
      have hcons : (e :: next :: entries).map bareEntry = bareEntry e :: (next :: entries).map bareEntry := rfl
      rw [fieldWords_cons e (List.cons_ne_nil next entries), List.map_append, ih, hcons, fieldWords_cons _ hmapped]
      rfl

/-- **Without its backticks the document of an action** is that of an action. -/
theorem bare_actionWords (name : String) (entries : List (String × String)) :
    (actionWords name entries).map Word.bare = actionWords (bare name) (entries.map bareEntry) := by
  have hcall : (callWords name).map Word.bare = callWords (bare name) := by
    have haction : bare "action" = "action" := by decide
    have hvariables : bare "action_variables" = "action_variables" := by decide
    simp [callWords, Word.bare, haction, hvariables]
  simp only [actionWords, List.map_cons, List.map_append, hcall, bare_fieldWords, Word.bare, List.map_nil]

theorem textsOf_bare (name : String) (entries : List (String × String)) :
    textsOf (bare name) (entries.map bareEntry) = (textsOf name entries).map bare := by
  simp [textsOf, List.flatMap_map, List.map_flatMap, bareEntry]

/-! ### Reading the document -/

/-- Texts are arguments as they are. -/
theorem argumentTexts_texts (entries : List (String × String)) :
    Planner.argumentTexts (.ofList (entries.map fun e => (e.1, .string e.2))) = .ofList entries := by
  have hmake : ∀ e : String × String, (Planner.argumentText? (.string e.2)).map (e.1, ·) = some e := fun _ => rfl
  have htexts : ((Dictionary.ofList entries).map fun _ => Json.string).entries.filterMap
      (fun e => (Planner.argumentText? e.2).map (e.1, ·)) = (Dictionary.ofList entries).entries := by
    rw [Dictionary.map, List.filterMap_map]
    simp only [Function.comp_def, hmake, List.filterMap_some]
  rw [Planner.argumentTexts, Dictionary.ofList_map, htexts, Dictionary.ofList_entries]

/-- **The document of an action is read as that action**; of two arguments with one name the later counts. -/
theorem Action.read?_document (name : String) (entries : List (String × String)) :
    Action.decoder.read? (.ofList (spell (actionWords name entries))) = some ⟨name, .ofList entries⟩ := by
  have hsource : (actionJson name entries).source? = some (.object
      ([("action", Source.string (some name)),
        ("action_variables", .object (entries.map fun e => (some e.1, .string (some e.2))))].map
          fun f => (some f.1, f.2))) := by
    simp [actionJson, source?, fieldSources?, Decoder.fieldSources?_texts]
  have harguments : Decoder.map Decoder.json (Source.depthLimit - 1)
      (.object (entries.map fun e => (some e.1, .string (some e.2)))) =
        some (.ofList (entries.map fun e => (e.1, .string e.2))) :=
    Decoder.map_of_entries (fun s => .string (some s)) Json.string (by decide) (fun _ => rfl) entries
  rw [← write_actionJson, ← compact, Decoder.read?_compact _ hsource, Decoder.run, decoder,
    Decoder.record_of_fields (by simp) (by simp) _ (by decide)]
  simp [Decoder.Fields.withDefault, lookupEntry, harguments, argumentTexts_texts]

end Step

end Orchestration
