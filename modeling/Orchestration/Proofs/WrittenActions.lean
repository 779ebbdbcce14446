import Orchestration.Proofs.ActionWords
import Orchestration.Proofs.ThoughtLines

/-!
# Actions that are written

A thought and an action are written as an answer: the thought behind its mark, and behind the mark of the action its
document, plain or with its outer braces doubled, and between backticks if there are any. What is read of the answer is
what was written, unless a text of the action has a backtick, braces in a text keep the document from being made out, or
the thought has a carriage return before a line feed, or a mark with a backtick in it.

* `Step.firstDocument_written_iff` — the document that is made out is all of what was written, or there is none.
* `Step.Wrapping`, `Step.answer` — the ways to write an answer.
* `Step.parse_answer` — what is read of an answer that was written.
* `Step.document_written` — where no text has a brace, the document is made out.
* `Step.recovers_answer` — which answers are read as they were written.
* `Step.parse_loses_texts` — answers of which something else is read.
-/

namespace Orchestration.Step

open Text Json

/-! ### Documents in a line -/

variable {cs lead before text behind document rest : List Char}

theorem Body.getLast? (h : Body cs) : cs.getLast? = some '\x7d' := by
  cases h with
  | @intro pairs last closing _ _ hclosing => rcases hclosing with rfl | rfl <;> simp

theorem Document.getLast? (h : Document document) : document.getLast? = some '\x7d' := by
  cases h with
  | single hbody => simp [List.getLast?_cons, hbody.getLast?]
  | double hbody => simp [List.getLast?_cons, hbody.getLast?]

theorem Document.exists_cons (h : Document document) : ∃ more, document = '\x7b' :: more := by
  cases h with
  | single _ => exact ⟨_, rfl⟩
  | double _ => exact ⟨_, rfl⟩

/-- What ends its line and is no more than a line is all of the line. -/
theorem eq_of_line (hfeed : '\n' ∉ text) (hbehind : behind = [] ∨ behind = ['\n'])
    (hlast : document.getLast? = some '\x7d') (hend : endsLine rest = true) (h : text ++ behind = document ++ rest) :
    document = text ∧ rest = behind := by
  rcases List.append_eq_append_iff.mp h with ⟨more, rfl, hmore⟩ | ⟨more, rfl, rfl⟩
  · cases more with
    | nil => exact ⟨List.append_nil text, hmore.symm⟩
    | cons c more =>
      -- it would end with the line feed
      obtain rfl : behind = ['\n'] := hbehind.resolve_left (by simp [hmore])
      obtain ⟨rfl, hnil⟩ := List.cons.inj hmore
      obtain ⟨rfl, -⟩ := List.append_eq_nil_iff.mp hnil.symm
      simp at hlast
  · cases more with
    | nil => exact ⟨(List.append_nil document).symm, rfl⟩
    | cons c more =>
      obtain rfl : c = '\n' := by simpa [endsLine] using hend
      exact absurd (by simp) hfeed

/-- **An action on one line** is made out as a whole, or not at all. -/
theorem actionAt_written_iff (hbefore : Unbraced before) (hopen : text.head? = some '\x7b') (hfeed : '\n' ∉ text)
    (hbehind : behind = [] ∨ behind = ['\n']) :
    ActionAt (actionMark.toList ++ (before ++ (text ++ behind))) document rest ↔
      Document text ∧ document = text ∧ rest = behind := by
  obtain ⟨more, rfl⟩ := List.head?_eq_some_iff.mp hopen
  have hwhole : ∀ document rest, ActionAt (actionMark.toList ++ (before ++ ('\x7b' :: more ++ behind))) document rest →
      Document ('\x7b' :: more) ∧ document = '\x7b' :: more ∧ rest = behind := by
    rintro document rest ⟨before', hbefore', hdocument, heq⟩
    obtain ⟨hdocument, hend⟩ := hdocument.isDocument
    obtain ⟨others, rfl⟩ := hdocument.exists_cons
    -- both documents start at the first brace
    have hstarts := congrArg beforeBrace (List.append_cancel_left heq)
    rw [List.cons_append, List.cons_append, beforeBrace_append hbefore (by decide),
      beforeBrace_append hbefore' (by decide)] at hstarts
    obtain ⟨hsame, hrest⟩ := eq_of_line hfeed hbehind hdocument.getLast? hend (Prod.mk.inj hstarts).2
    exact ⟨hsame ▸ hdocument, hsame, hrest⟩
  refine ⟨hwhole document rest, ?_⟩
  rintro ⟨hdocument, rfl, rfl⟩
  have hend : endsLine rest = true := by rcases hbehind with rfl | rfl <;> rfl
  obtain ⟨⟨found, left⟩, hfound⟩ := Option.isSome_iff_exists.mp (isSome_actionAt? hbefore hdocument hend)
  obtain ⟨-, rfl, rfl⟩ := hwhole found left (actionAt?_eq_some_iff.mp hfound)
  exact actionAt?_eq_some_iff.mp hfound

/-- **The first document of an answer** with one mark and one line behind it is that line, if it is a document. -/
theorem firstDocument_written_iff (hlead : ¬actionMark.toList <:+: lead) (hbefore : Unbraced before)
    (hbracket : '[' ∉ before) (hopen : text.head? = some '\x7b') (hfeed : '\n' ∉ text)
    (hbehind : behind = [] ∨ behind = ['\n']) (hmark : ¬actionMark.toList <:+: text ++ behind) :
    FirstDocument (lead ++ (actionMark.toList ++ (before ++ (text ++ behind)))) document ↔
      Document text ∧ document = text := by
  have hat : ∀ document rest, ActionAt (actionMark.toList ++ (before ++ (text ++ behind))) document rest ↔
      Document text ∧ document = text ∧ rest = behind :=
    fun _ _ => actionAt_written_iff hbefore hopen hfeed hbehind
  -- no mark starts before the mark that there is, nor behind it
  have hfirst : ∀ s, s <:+ lead → s ≠ [] →
      ¬actionMark.toList <+: s ++ (actionMark.toList ++ (before ++ (text ++ behind))) := by
    intro s hs hne hp
    exact hlead ((prefix_of_prefix_append_cons (by decide) hne hp).isInfix.trans hs.isInfix)
  have honly : ∀ s, s <:+ actionMark.toList.tail ++ (before ++ (text ++ behind)) → ¬actionMark.toList <+: s := by
    intro s hs hp
    have hhead : actionMark.toList.head? = some '[' := by decide
    have hbehind := infix_of_infix_append hhead (by decide) (hp.isInfix.trans hs.isInfix)
    exact hmark (infix_of_infix_append hhead hbracket hbehind)
  constructor
  · rintro ⟨lead', start, rest, heq, hstart, -⟩
    have hp : actionMark.toList <+: start := by
      obtain ⟨before', -, -, rfl⟩ := hstart
      exact List.prefix_append _ _
    rcases List.append_eq_append_iff.mp heq with ⟨more, rfl, hmore⟩ | ⟨more, rfl, rfl⟩
    · cases more with
      | nil =>
        rw [List.nil_append] at hmore
        rw [← hmore] at hstart
        obtain ⟨hdocument, hsame, -⟩ := (hat document rest).mp hstart
        exact ⟨hdocument, hsame⟩
      | cons c more =>
        have htail : actionMark.toList.tail ++ (before ++ (text ++ behind)) = more ++ start := (List.cons.inj hmore).2
        exact absurd hp (honly start (htail ▸ List.suffix_append more start))
    · by_cases hmore : more = []
      · rw [hmore, List.nil_append] at hstart
        obtain ⟨hdocument, hsame, -⟩ := (hat document rest).mp hstart
        exact ⟨hdocument, hsame⟩
      · exact absurd hp (hfirst more (List.suffix_append lead' more) hmore)
  · rintro ⟨hdocument, rfl⟩
    refine ⟨lead, _, behind, rfl, (hat _ _).mpr ⟨hdocument, rfl, rfl⟩, ?_⟩
    rintro s hs hne other rest ⟨before', -, -, heq⟩
    exact hfirst s hs hne ⟨_, heq.symm⟩

/-! ### Answers that are written -/

/-- The document of an action. -/
def Action.toJson (a : Action) : Json :=
  .object [("action", .string a.name), ("action_variables", .ofTexts a.arguments)]

/-- The texts of an action: its name, and the names and values of its arguments. -/
def Action.texts (a : Action) : List String := textsOf a.name a.arguments.entries

/-- **How a document is written** behind the mark of an action. -/
structure Wrapping where
  /-- whether its outer braces are doubled -/
  doubled : Bool := false
  /-- how many backticks stand before it, and as many behind it -/
  ticks : Nat := 0
  /-- what stands behind the first backticks, if the document has a line of its own between them -/
  label : Option { label : String // Plain label.toList } := none

namespace Wrapping

variable {w : Wrapping}

/-- The backticks on one side. -/
def fence (w : Wrapping) : String := .ofList (List.replicate w.ticks '\x60')

/-- What stands before the document. -/
def opening (w : Wrapping) : String :=
  match w.label with
  | none => w.fence
  | some label => w.fence ++ label.1 ++ "\n"

/-- What stands behind the document. -/
def closing (w : Wrapping) : String :=
  match w.label with
  | none => w.fence
  | some _ => "\n" ++ w.fence

/-- A document with its outer braces as often as they are written. -/
def braced (w : Wrapping) (document : String) : String :=
  if w.doubled then "\x7b" ++ document ++ "\x7d" else document

/-- The words of a document with its outer braces as often as they are written. -/
def words (w : Wrapping) (words : List Word) : List Word :=
  if w.doubled then .opening :: (words ++ [.closing]) else words

variable {s document : String} {words : List Word} {c : Char}

theorem toList_feed : "\n".toList = ['\n'] := rfl

theorem toList_braced (h : document.toList = spell words) : (w.braced document).toList = spell (w.words words) := by
  rw [braced, Wrapping.words]
  split
  · have hopening : "\x7b".toList = ['\x7b'] := rfl
    have hclosing : "\x7d".toList = ['\x7d'] := rfl
    simp [String.toList_append, h, Word.chars, hopening, hclosing]
  · exact h

theorem bare_words (words : List Word) : (w.words words).map Word.bare = w.words (words.map Word.bare) := by
  rw [Wrapping.words, Wrapping.words]
  split
  · simp [Word.bare]
  · rfl

theorem literal_mem_words : .literal s ∈ w.words words ↔ .literal s ∈ words := by
  rw [Wrapping.words]
  split <;> simp

theorem head?_words {name : String} {entries : List (String × String)} :
    (spell (w.words (actionWords name entries))).head? = some '\x7b' := by
  rw [Wrapping.words]
  split <;> rfl

theorem tick_of_mem_fence (h : c ∈ w.fence.toList) : c = '\x60' := by
  rw [fence, String.toList_ofList] at h
  exact List.eq_of_mem_replicate h

theorem bare_fence (w : Wrapping) : (bare w.fence).toList = [] := by
  rw [toList_bare, List.filter_eq_nil_iff]
  intro c hc
  simp [tick_of_mem_fence hc]

/-- Neither a mark nor a document starts before the document. -/
theorem of_mem_opening (h : c ∈ w.opening.toList) : isBrace c = false ∧ c ≠ '[' := by
  have htick : c ∈ w.fence.toList → isBrace c = false ∧ c ≠ '[' := by
    intro hc
    rw [tick_of_mem_fence hc]
    decide
  rw [opening] at h
  split at h
  · exact htick h
  · next label _ =>
    rw [String.toList_append, String.toList_append, List.mem_append, List.mem_append] at h
    rcases h with (h | h) | h
    · exact htick h
    · have hplain := label.2 c h
      exact ⟨Bool.eq_false_iff.mpr fun hbrace => hplain (.inr (.inr (.inr hbrace))), fun hc => hplain (.inl hc)⟩
    · rw [toList_feed, List.mem_singleton] at h
      rw [h]
      decide

theorem bracket_not_mem_lead (h : cs ⊆ w.opening.toList) : '[' ∉ ' ' :: cs := by
  intro hmem
  rcases List.mem_cons.mp hmem with hblank | hmem
  · exact absurd hblank (by decide)
  · exact (of_mem_opening (h hmem)).2 rfl

theorem of_mem_closing (h : c ∈ w.closing.toList) : c ≠ '[' := by
  rw [closing] at h
  split at h
  · rw [tick_of_mem_fence h]
    decide
  · rw [String.toList_append, List.mem_append] at h
    rcases h with h | h
    · rw [toList_feed, List.mem_singleton] at h
      rw [h]
      decide
    · rw [tick_of_mem_fence h]
      decide

/-- The document ends its line. -/
theorem bare_closing (w : Wrapping) : (bare w.closing).toList = [] ∨ (bare w.closing).toList = ['\n'] := by
  rw [closing]
  split
  · exact .inl (bare_fence w)
  · have hfence := bare_fence w
    rw [toList_bare] at hfence
    refine .inr ?_
    rw [toList_bare, String.toList_append, List.filter_append, hfence, toList_feed]
    rfl

end Wrapping

/-- **An answer with a thought and an action.** -/
def answer (thought : String) (a : Action) (w : Wrapping) : String :=
  thoughtMark ++ " " ++ thought ++ "\n" ++ actionMark ++ " " ++ w.opening ++ w.braced a.toJson.compact ++ w.closing

/-- No mark stands in the text. -/
def Unmarked (s : String) : Prop := ∀ mark ∈ marks, ¬mark.toList <:+: s.toList

instance (s : String) : Decidable (Unmarked s) := inferInstanceAs (Decidable (∀ mark ∈ marks, _))

/-- **What was written is read**: the thought without the blanks at its ends, and the action with its arguments. -/
structure Recovers (response thought : String) (a : Action) : Prop where
  thought : (parse response).thought = trim thought
  action : (parse response).action = a.name
  arguments : (parse response).actionVariables = a.arguments

theorem recovers_iff {response thought : String} {a : Action} : Recovers response thought a ↔
    (parse response).thought = trim thought ∧ (parse response).action = a.name ∧
      (parse response).actionVariables = a.arguments :=
  ⟨fun h => ⟨h.thought, h.action, h.arguments⟩, fun h => ⟨h.1, h.2.1, h.2.2⟩⟩

instance (response thought : String) (a : Action) : Decidable (Recovers response thought a) :=
  decidable_of_iff' _ recovers_iff

/-- **What can be written without loss.** -/
structure Kept (thought : String) (a : Action) (w : Wrapping) : Prop where
  /-- no text of the action has a backtick -/
  unfenced : ∀ text ∈ a.texts, '\x60' ∉ text.toList
  /-- the document is made out by its braces -/
  document : Document (w.braced a.toJson.compact).toList
  /-- blanks at its ends apart, the thought has no carriage return before a line feed -/
  feeds : ¬['\r', '\n'] <:+: (trim thought).toList

variable {thought response : String} {a : Action} {w : Wrapping}

/-! ### Marks in answers -/

theorem filter_mark : ∀ mark ∈ marks, mark.toList.filter (· ≠ '\x60') = mark.toList := by decide

theorem unmarked_of_bare {s : String} (h : Unmarked (bare s)) : Unmarked s := by
  intro mark hmark hi
  refine h mark hmark ?_
  rw [toList_bare, ← filter_mark mark hmark]
  exact hi.filter _

/-- No mark starts in another. -/
theorem infix_of_infix_mark {mark other : String} (hmark : mark ∈ marks) (hother : other ∈ marks) (hne : mark ≠ other)
    (h : mark.toList <:+: other.toList ++ cs) : mark.toList <:+: cs := by
  have hprefix : ∀ mark ∈ marks, ∀ other ∈ marks, mark ≠ other → ¬mark.toList <+: other.toList := by decide
  obtain ⟨hhead, -, -, -⟩ := marks_spelled mark hmark
  obtain ⟨hother', -, -, htail⟩ := marks_spelled other hother
  obtain ⟨tail, hcons⟩ := List.head?_eq_some_iff.mp hother'
  have hpassed : '[' ∉ tail := by
    rw [hcons, List.tail_cons] at htail
    exact fun hmem => htail _ hmem (.inl rfl)
  have hstart : ¬mark.toList <+: other.toList ++ cs := by
    intro hp
    rcases List.prefix_or_prefix_of_prefix hp (List.prefix_append _ cs) with hp | hp
    · exact hprefix mark hmark other hother hne hp
    · exact hprefix other hother mark hmark hne.symm hp
  rw [hcons, List.cons_append] at h hstart
  exact infix_of_infix_append hhead hpassed ((List.infix_cons_iff.mp h).resolve_left hstart)

/-- A mark behind that of the thought stands in the thought or behind its last line. -/
theorem infix_of_infix_thought {mark : String} {chars : List Char} (hmark : mark ∈ marks) (hne : mark ≠ thoughtMark)
    (h : mark.toList <:+: thoughtMark.toList ++ ' ' :: chars ++ '\n' :: rest) :
    mark.toList <:+: chars ∨ mark.toList <:+: rest := by
  obtain ⟨hhead, -, -, htail⟩ := marks_spelled mark hmark
  rw [List.append_assoc] at h
  have hbehind : mark.toList <:+: [' '] ++ (chars ++ '\n' :: rest) := infix_of_infix_mark hmark (by decide) hne h
  have hline := infix_of_infix_append hhead (by decide) hbehind
  refine (infix_append_cons (fun hfeed => htail _ hfeed (by decide)) hline).imp_right fun h => ?_
  have hnext : mark.toList <:+: ['\n'] ++ rest := h
  exact infix_of_infix_append hhead (by decide) hnext

/-- **No mark stands in the document** of an action without marks in its texts. -/
theorem not_infix_words {mark : String} {name : String} {entries : List (String × String)} (hmark : mark ∈ marks)
    (htexts : ∀ text ∈ textsOf name entries, Unmarked text) (hrest : '[' ∉ rest) :
    ¬mark.toList <:+: spell (w.words (actionWords name entries)) ++ rest := by
  obtain ⟨hhead, -, -, -⟩ := marks_spelled mark hmark
  have hfields : Unmarked "action" ∧ Unmarked "action_variables" := by decide
  intro h
  rcases infix_of_infix_words hmark h with ⟨s, hs, hi⟩ | hi
  · rcases literal_mem_actionWords (Wrapping.literal_mem_words.mp hs) with rfl | rfl | hs
    · exact hfields.1 mark hmark hi
    · exact hfields.2 mark hmark hi
    · exact htexts s hs mark hmark hi
  · obtain ⟨before, after, heq⟩ := hi
    refine hrest ?_
    rw [← heq]
    simp [List.mem_of_mem_head? (Option.mem_def.mpr hhead)]

/-! ### Reading answers -/

/-- The document of an action in its words, with its outer braces as often as they are written. -/
theorem toList_document (a : Action) (w : Wrapping) :
    (w.braced a.toJson.compact).toList = spell (w.words (actionWords a.name a.arguments.entries)) := by
  refine Wrapping.toList_braced ?_
  rw [Json.compact, String.toList_ofList]
  exact write_actionJson a.name a.arguments.entries

theorem toList_answer (thought : String) (a : Action) (w : Wrapping) :
    (answer thought a w).toList = thoughtMark.toList ++ ' ' :: thought.toList ++ '\n' :: (actionMark.toList ++
      (' ' :: w.opening.toList ++ (spell (w.words (actionWords a.name a.arguments.entries)) ++ w.closing.toList))) := by
  have hblank : " ".toList = [' '] := rfl
  simp only [answer, String.toList_append, toList_document, hblank, Wrapping.toList_feed, List.append_assoc, List.cons_append,
    List.nil_append]

/-- An action without arguments between backticks. -/
example : answer "list" ⟨"file.run", ∅⟩ { ticks := 1 } =
    "[THOUGHT] list\n[ACTION] \x60\x7b\"action\":\"file.run\",\"action_variables\":\x7b\x7d\x7d\x60" := by
  decide +kernel

/-- An answer without its backticks has the document without those of its texts. -/
theorem unfenced_answer (thought : String) (a : Action) (w : Wrapping) :
    unfenced (answer thought a w) = thoughtMark.toList ++ ' ' :: (bare thought).toList ++ ['\n'] ++ (actionMark.toList ++
      (' ' :: (bare w.opening).toList ++
        (spell (w.words (actionWords (bare a.name) (a.arguments.entries.map bareEntry))) ++
          (bare w.closing).toList))) := by
  rw [unfenced, toList_answer, ← bare_actionWords, ← Wrapping.bare_words, ← filter_words]
  simp only [List.filter_append, List.filter_cons, filter_mark thoughtMark (by decide),
    filter_mark actionMark (by decide), toList_bare]
  simp

/-- The doubling of the outer braces is undone. -/
theorem single_doubled (hfirst : cs.head? = some '\x7b') (hlast : cs.getLast? = some '\x7d') :
    single ('\x7b' :: (cs ++ ['\x7d'])) = cs := by
  have hstart : ['\x7b', '\x7b'].isPrefixOf ('\x7b' :: (cs ++ ['\x7d'])) = true := by
    obtain ⟨more, rfl⟩ := List.head?_eq_some_iff.mp hfirst
    rfl
  have hend : ['\x7d', '\x7d'].isSuffixOf ('\x7b' :: (cs ++ ['\x7d'])) = true := by
    obtain ⟨init, rfl⟩ := List.getLast?_eq_some_iff.mp hlast
    rw [List.isSuffixOf_iff_suffix]
    exact ⟨'\x7b' :: init, by simp⟩
  rw [single, hstart, hend]
  simp

/-- What stands between the outer braces, however often they are written. -/
theorem single_words (name : String) (entries : List (String × String)) :
    single (spell (w.words (actionWords name entries))) = spell (actionWords name entries) := by
  have hwords : spell (actionWords name entries) = '\x7b' :: '"' :: ("action".toList.flatMap escape ++
      '"' :: spell ((callWords name).tail ++ .opening :: fieldWords entries) ++ ['\x7d', '\x7d']) := by
    simp [actionWords, callWords, Word.chars, writeString]
  rw [Wrapping.words]
  split
  · have hspell : spell (.opening :: (actionWords name entries ++ [.closing])) =
        '\x7b' :: (spell (actionWords name entries) ++ ['\x7d']) := by simp [Word.chars]
    rw [hspell]
    exact single_doubled (by rw [hwords]; rfl) (by rw [hwords]; simp [List.getLast?_cons])
  · have hstart : ['\x7b', '\x7b'].isPrefixOf (spell (actionWords name entries)) = false := by
      rw [hwords]
      rfl
    rw [single, hstart]
    rfl

theorem thoughtOf_answer (hthought : Unmarked thought) :
    thoughtOf (answer thought a w) = .ofList (trimChars (feeds (thought.toList ++ ['\n']))) := by
  have hchars := toList_answer thought a w
  rw [← String.ofList_toList (s := answer thought a w), hchars]
  exact thoughtOf_written (hthought _ (by decide)) (hthought _ (by decide)) _

/-- **No final answer** is read. -/
theorem finalAnswer?_answer (hthought : Unmarked thought) (htexts : ∀ text ∈ a.texts, Unmarked text) :
    finalAnswer? (answer thought a w).toList = none := by
  have hmark : finalMark ∈ marks := by decide
  refine finalAnswer?_eq_none fun h => ?_
  rw [toList_answer] at h
  rcases infix_of_infix_thought hmark (by decide) h with h | h
  · exact hthought _ hmark h
  · have hhead : finalMark.toList.head? = some '[' := by decide
    have hlead := Wrapping.bracket_not_mem_lead (List.Subset.refl w.opening.toList)
    have hbehind := infix_of_infix_append hhead hlead (infix_of_infix_mark hmark (by decide) (by decide) h)
    exact not_infix_words hmark htexts (fun hc => Wrapping.of_mem_closing hc rfl) hbehind

/-- The document of an action without the backticks of its texts. -/
def bareDocument (a : Action) (w : Wrapping) : List Char :=
  spell (w.words (actionWords (bare a.name) (a.arguments.entries.map bareEntry)))

/-- **The document that is made out** is that of the action without backticks, if its braces are those of one. -/
theorem firstDocument_answer_iff (hthought : Unmarked (bare thought)) (htexts : ∀ text ∈ a.texts, Unmarked (bare text)) :
    FirstDocument (unfenced (answer thought a w)) document ↔
      Document (bareDocument a w) ∧ document = bareDocument a w := by
  have hmark : actionMark ∈ marks := by decide
  have hlead : ¬actionMark.toList <:+: thoughtMark.toList ++ ' ' :: (bare thought).toList ++ ['\n'] := by
    intro h
    rcases infix_of_infix_thought hmark (by decide) h with h | h
    · exact hthought _ hmark h
    · exact absurd h (by decide)
  have hopening : (bare w.opening).toList ⊆ w.opening.toList := by
    rw [toList_bare]
    exact List.filter_sublist.subset
  have hunbraced : Unbraced (' ' :: (bare w.opening).toList) :=
    List.forall_mem_cons.mpr ⟨by decide, fun c hc => (Wrapping.of_mem_opening (hopening hc)).1⟩
  have hclosing : '[' ∉ (bare w.closing).toList := by
    rw [toList_bare]
    exact fun h => Wrapping.of_mem_closing (List.mem_of_mem_filter h) rfl
  have hbare : ∀ text ∈ textsOf (bare a.name) (a.arguments.entries.map bareEntry), Unmarked text := by
    rw [textsOf_bare]
    exact List.forall_mem_map.mpr htexts
  rw [unfenced_answer]
  exact firstDocument_written_iff hlead hunbraced (Wrapping.bracket_not_mem_lead hopening) Wrapping.head?_words
    (feed_not_mem_words _) (Wrapping.bare_closing w) (not_infix_words hmark hbare hclosing)

theorem parse_thought (hfinal : finalAnswer? response.toList = none) : (parse response).thought = thoughtOf response := by
  obtain ⟨s, hs, hthought, -⟩ := exists_parse_eq_noted hfinal
  rw [hs, noted, ← hthought]
  split <;> rfl

/-- What is read of an answer in which a document is made out. -/
theorem parse_of_document (hfinal : finalAnswer? response.toList = none)
    (hdocument : FirstDocument (unfenced response) document)
    (hread : Action.decoder.read? (.ofList (single document)) = some a) :
    (parse response).action = a.name ∧ (parse response).actionVariables = a.arguments := by
  have htext := actionText?_eq_some_iff.mpr ⟨document, hdocument, rfl⟩
  rw [parse, hfinal]
  simp only [htext, hread]
  rw [noted]
  split <;> exact ⟨rfl, rfl⟩

/-- What is read of one in which none is. -/
theorem parse_of_no_document (hfinal : finalAnswer? response.toList = none)
    (hnone : ∀ document, ¬FirstDocument (unfenced response) document) : (parse response).action = "" := by
  have htext : actionText? response.toList = none := by
    refine Option.eq_none_iff_forall_ne_some.mpr fun text htext => ?_
    obtain ⟨document, hdocument, -⟩ := actionText?_eq_some_iff.mp htext
    exact hnone document hdocument
  rw [parse, hfinal]
  simp only [htext]
  rw [noted]
  split <;> rfl

/-! ### What is recovered -/

/-- Where no text has a backtick, the document is as it is without them. -/
theorem bareDocument_eq (w : Wrapping) (h : ∀ text ∈ a.texts, '\x60' ∉ text.toList) :
    bare a.name = a.name ∧ a.arguments.entries.map bareEntry = a.arguments.entries ∧
      bareDocument a w = (w.braced a.toJson.compact).toList := by
  obtain ⟨hname, hentries⟩ := List.forall_mem_cons.mp h
  have hname' : bare a.name = a.name := bare_eq_self_iff.mpr hname
  have hentries' : a.arguments.entries.map bareEntry = a.arguments.entries := by
    refine (List.map_congr_left fun e he => ?_).trans (List.map_id _)
    have hkey := hentries e.1 (List.mem_flatMap.mpr ⟨e, he, by simp⟩)
    have hvalue := hentries e.2 (List.mem_flatMap.mpr ⟨e, he, by simp⟩)
    exact Prod.ext (bare_eq_self_iff.mpr hkey) (bare_eq_self_iff.mpr hvalue)
  exact ⟨hname', hentries', by rw [bareDocument, hname', hentries', toList_document]⟩

/-- **What is read of an answer that was written**: the action without backticks if its document is made out, and else
no action. -/
theorem parse_answer (hthought : Unmarked (bare thought)) (htexts : ∀ text ∈ a.texts, Unmarked (bare text)) :
    (parse (answer thought a w)).thought = thoughtOf (answer thought a w) ∧
      (Document (bareDocument a w) → (parse (answer thought a w)).action = bare a.name ∧
        (parse (answer thought a w)).actionVariables = .ofList (a.arguments.entries.map bareEntry)) ∧
      (¬Document (bareDocument a w) → (parse (answer thought a w)).action = "") := by
  have hfinal : finalAnswer? (answer thought a w).toList = none :=
    finalAnswer?_answer (unmarked_of_bare hthought) fun text htext => unmarked_of_bare (htexts text htext)
  have hread : Action.decoder.read? (.ofList (single (bareDocument a w))) =
      some ⟨bare a.name, .ofList (a.arguments.entries.map bareEntry)⟩ := by
    rw [bareDocument, single_words]
    exact Action.read?_document _ _
  refine ⟨parse_thought hfinal, fun hdocument => ?_, fun hnone => ?_⟩
  · exact parse_of_document hfinal ((firstDocument_answer_iff hthought htexts).mpr ⟨hdocument, rfl⟩) hread
  · exact parse_of_no_document hfinal fun document hfirst =>
      hnone ((firstDocument_answer_iff hthought htexts).mp hfirst).1

/-- The thought is recovered if it has line feeds only. -/
theorem thoughtOf_answer_eq_iff (hthought : Unmarked thought) :
    thoughtOf (answer thought a w) = trim thought ↔ ¬['\r', '\n'] <:+: (trim thought).toList := by
  rw [thoughtOf_answer hthought, trim, String.toList_ofList, ← trimChars_feeds_iff, String.ofList_inj]

/-- **What can be written without loss is recovered.** -/
theorem Kept.recovers (h : Kept thought a w) (hthought : Unmarked (bare thought))
    (htexts : ∀ text ∈ a.texts, Unmarked text) : Recovers (answer thought a w) thought a := by
  have hbare : ∀ text ∈ a.texts, Unmarked (bare text) := by
    intro text htext
    rw [bare_eq_self_iff.mpr (h.unfenced text htext)]
    exact htexts text htext
  obtain ⟨hname, hentries, hdocument⟩ := bareDocument_eq w h.unfenced
  obtain ⟨hread, haction, -⟩ := parse_answer (w := w) hthought hbare
  obtain ⟨hactionName, harguments⟩ := haction (hdocument ▸ h.document)
  refine ⟨?_, ?_, ?_⟩
  · rw [hread]
    exact (thoughtOf_answer_eq_iff (unmarked_of_bare hthought)).mpr h.feeds
  · rw [hactionName, hname]
  · rw [harguments, hentries, Dictionary.ofList_entries]

/-- **What is recovered could be written without loss**, where no mark comes up when backticks are dropped. -/
theorem Recovers.kept (h : Recovers (answer thought a w) thought a) (hname : a.name ≠ "")
    (hthought : Unmarked (bare thought)) (htexts : ∀ text ∈ a.texts, Unmarked (bare text)) : Kept thought a w := by
  obtain ⟨hread, haction, hnone⟩ := parse_answer (w := w) hthought htexts
  by_cases hdocument : Document (bareDocument a w)
  · obtain ⟨hactionName, harguments⟩ := haction hdocument
    rw [h.action] at hactionName
    rw [h.arguments] at harguments
    -- what was read has no backtick, and it is the action
    have hunfenced : ∀ text ∈ a.texts, '\x60' ∉ text.toList := by
      refine List.forall_mem_cons.mpr ⟨hactionName ▸ tick_not_mem_bare a.name, fun text htext => ?_⟩
      obtain ⟨e, he, htext⟩ := List.mem_flatMap.mp htext
      rw [harguments] at he
      obtain ⟨e', -, rfl⟩ := List.mem_map.mp (Dictionary.mem_of_mem_ofList he)
      rcases List.mem_pair.mp htext with rfl | rfl
      · exact tick_not_mem_bare e'.1
      · exact tick_not_mem_bare e'.2
    refine ⟨hunfenced, ?_, ?_⟩
    · rw [← (bareDocument_eq w hunfenced).2.2]
      exact hdocument
    · exact (thoughtOf_answer_eq_iff (unmarked_of_bare hthought)).mp (hread.symm.trans h.thought)
  · exact absurd (h.action.symm.trans (hnone hdocument)) hname

/-- **Without braces in its texts** the document of an action is made out. -/
theorem document_written (w : Wrapping) (h : ∀ text ∈ a.texts, Unbraced text.toList) :
    Document (w.braced a.toJson.compact).toList := by
  obtain ⟨hname, hentries⟩ := List.forall_mem_cons.mp h
  have hcall : Unbraced (spell (callWords a.name)) := by
    refine unbraced_words (by simp [callWords]) fun s hs => ?_
    simp only [callWords, List.mem_cons, reduceCtorEq, List.not_mem_nil, or_false, false_or, Word.literal.injEq] at hs
    rcases hs with rfl | rfl | rfl
    · decide
    · exact hname
    · decide
  have hfields : Unbraced (spell (fieldWords a.arguments.entries)) := by
    refine unbraced_words ⟨fun hs => ?_, fun hs => ?_⟩ fun s hs => ?_
    · simpa using mem_fieldWords hs
    · simpa using mem_fieldWords hs
    · rcases mem_fieldWords hs with hs | hs | ⟨e, he, hs | hs⟩
      · cases hs
      · cases hs
      · exact hentries s (List.mem_flatMap.mpr ⟨e, he, by simp [Word.literal.inj hs]⟩)
      · exact hentries s (List.mem_flatMap.mpr ⟨e, he, by simp [Word.literal.inj hs]⟩)
  -- the arguments are the one pair of braces in the document
  have hpairs := Paired.pair hcall hfields .nil
  rw [toList_document, Wrapping.words]
  split
  · have hbody := Document.double (.intro hpairs unbraced_nil (.inr rfl))
    simpa [actionWords, Word.chars] using hbody
  · have hbody := Document.single (.intro hpairs unbraced_nil (.inl rfl))
    simpa [actionWords, Word.chars] using hbody

/-- **An action that was written is read as it was** if it can be written without loss: no text of it has a backtick, its
document is made out by its braces, as it is where no text has any, and the thought has line feeds only. Where no mark
comes up when backticks are dropped, no other action is. -/
theorem recovers_answer (hname : a.name ≠ "") (hthought : Unmarked (bare thought))
    (htexts : ∀ text ∈ a.texts, Unmarked text) (w : Wrapping) :
    (Kept thought a w → Recovers (answer thought a w) thought a) ∧
      ((∀ text ∈ a.texts, Unmarked (bare text)) → Recovers (answer thought a w) thought a → Kept thought a w) ∧
      ((∀ text ∈ a.texts, Unbraced text.toList) → Document (w.braced a.toJson.compact).toList) :=
  ⟨fun h => h.recovers hthought htexts, fun hbare h => h.kept hname hthought hbare, document_written w⟩

/-- Between backticks and with its braces doubled, an action is recovered with quotes, brackets and line ends. -/
theorem recovers_answer_fenced :
    let thought := " list the files\nof the plan "
    let a : Action := ⟨"file.run", .ofList [("input", "ls \"[plan]\"\r\n")]⟩
    let w : Wrapping := { doubled := true, ticks := 3, label := some ⟨"json", by decide⟩ }
    a.name ≠ "" ∧ Unmarked (bare thought) ∧ (∀ text ∈ a.texts, Unmarked text) ∧ Kept thought a w ∧
      Recovers (answer thought a w) thought a := by
  intro thought a w
  have hname : a.name ≠ "" := by decide
  have hthought : Unmarked (bare thought) := by decide +kernel
  have htexts : ∀ text ∈ a.texts, Unmarked text := by decide +kernel
  obtain ⟨hrecovers, -, hdocument⟩ := recovers_answer hname hthought htexts w
  have hunfenced : ∀ text ∈ a.texts, '\x60' ∉ text.toList := by decide +kernel
  have hunbraced : ∀ text ∈ a.texts, Unbraced text.toList := by decide +kernel
  have hfeeds : ¬['\r', '\n'] <:+: (trim thought).toList := by decide +kernel
  have hkept : Kept thought a w := ⟨hunfenced, hdocument hunbraced, hfeeds⟩
  exact ⟨hname, hthought, htexts, hkept, hrecovers hkept⟩

/-- A thought and an action without marks are not recovered from a plain answer. -/
def Loses (thought : String) (a : Action) : Prop :=
  a.name ≠ "" ∧ Unmarked thought ∧ (∀ text ∈ a.texts, Unmarked text) ∧ ¬Recovers (answer thought a {}) thought a

instance (thought : String) (a : Action) : Decidable (Loses thought a) := inferInstanceAs (Decidable (_ ∧ _ ∧ _ ∧ _))

/-- **Texts are lost** between what was written and what is read: with backticks in an argument, with braces in one, and
with a carriage return before a line feed in the thought, or a mark with a backtick in it before a document. -/
theorem parse_loses_texts :
    Loses "list" ⟨"file.run", .ofList [("input", "\x60ls\x60")]⟩ ∧
      Loses "list" ⟨"file.run", .ofList [("input", "\x7bls\x7d")]⟩ ∧
      Loses "list\r\nfiles" ⟨"file.run", .ofList [("input", "ls")]⟩ ∧
      Loses "an [ACTION\x60] \x7b\x7d" ⟨"file.run", .ofList [("input", "ls")]⟩ := by
  decide +kernel

end Orchestration.Step
