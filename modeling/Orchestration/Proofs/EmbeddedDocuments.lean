import Orchestration.Proofs.PlanReading
import Orchestration.Proofs.Scanning

/-!
# Documents in prose

A model may write something before and behind the document that it was asked for. The document is taken to reach from
the first opening brace to the last closing one, so that prose without such braces on its side makes no difference. Braces
belong to ASCII, and no byte of another character is one of theirs: whoever looks for them among the bytes of a text cuts
between characters.

* `Planner.Embedded` — a document with what stands before and behind it.
* `Planner.documentIn?_eq_some_iff`, `Planner.documentIn?_eq_none_iff` — which document a text holds, if it does.
* `Planner.CutOut` — the same by the bytes of the text.
* `Planner.ChoiceEnds`, `Planner.SubtasksEnds` — all that can come of an answer.
* `Planner.read_embedded` — prose makes no difference, and every answer ends in one of these ways.
-/

namespace Orchestration.Planner

open Text

variable {k : Kernel} {goal answer : String} {cs before document after : List Char} {c d : Char}

/-! ### Documents by their braces -/

/-- A text that starts with an opening brace and ends with a closing one. -/
structure Braced (document : List Char) : Prop where
  /-- it starts with an opening brace -/
  opened : document.head? = some '\x7b'
  /-- it ends with a closing brace -/
  closed : document.getLast? = some '\x7d'

theorem Braced.exists_inside (h : Braced document) : ∃ inside, document = '\x7b' :: (inside ++ ['\x7d']) := by
  obtain ⟨rest, rfl⟩ := List.head?_eq_some_iff.mp h.opened
  have hclosed := h.closed
  rcases List.eq_nil_or_concat rest with rfl | ⟨inside, last, rfl⟩
  · exact absurd hclosed (by decide)
  · rw [List.concat_eq_append, ← List.cons_append, List.getLast?_concat] at hclosed
    obtain rfl := Option.some.inj hclosed
    exact ⟨inside, by rw [List.concat_eq_append]⟩

theorem braced_cons (inside : List Char) : Braced ('\x7b' :: (inside ++ ['\x7d'])) :=
  ⟨rfl, by rw [← List.cons_append, List.getLast?_concat]⟩

/-- **A document in a text**: no brace opens before it, and none closes behind it. -/
structure Embedded (cs before document after : List Char) : Prop where
  /-- the text -/
  parts : cs = before ++ (document ++ after)
  /-- no brace opens before the document -/
  unopened : '\x7b' ∉ before
  /-- the document -/
  braced : Braced document
  /-- no brace closes behind it -/
  unclosed : '\x7d' ∉ after

/-- A text without a character is passed over on the way to it. -/
theorem dropWhile_ne_append (h : c ∉ before) (rest : List Char) :
    (before ++ c :: rest).dropWhile (· ≠ c) = c :: rest :=
  dropWhile_append_stop (fun d hd => decide_eq_true fun heq => h (heq ▸ hd)) (by simp)

theorem Embedded.documentIn?_eq (h : Embedded cs before document after) : documentIn? cs = some document := by
  obtain ⟨inside, hdocument⟩ := h.braced.exists_inside
  have hparts : before ++ (document ++ after) = before ++ '\x7b' :: (inside ++ '\x7d' :: after) := by
    rw [hdocument]
    simp
  have hreverse : ('\x7b' :: (inside ++ '\x7d' :: after)).reverse =
      after.reverse ++ '\x7d' :: (inside.reverse ++ ['\x7b']) := by simp
  have hlast : (after.reverse ++ '\x7d' :: (inside.reverse ++ ['\x7b'])).dropWhile (· ≠ '\x7d') =
      '\x7d' :: (inside.reverse ++ ['\x7b']) := dropWhile_ne_append (by simpa using h.unclosed) _
  have hback : ('\x7d' :: (inside.reverse ++ ['\x7b'])).reverse = document := by
    rw [hdocument]
    simp
  rw [documentIn?, h.parts, hparts, dropWhile_ne_append h.unopened, hreverse, hlast, hback, hdocument]

/-- Nothing is found where no brace closes behind the first that opens. -/
theorem documentIn?_eq_none_iff_not_mem : documentIn? cs = none ↔ '\x7d' ∉ cs.dropWhile (· ≠ '\x7b') := by
  have hnone : documentIn? cs = none ↔
      ((cs.dropWhile (· ≠ '\x7b')).reverse.dropWhile (· ≠ '\x7d')).reverse = [] := by
    rw [documentIn?]
    split
    · next hnil => exact ⟨fun _ => hnil, fun _ => rfl⟩
    · next hne => exact ⟨nofun, fun hnil => absurd hnil hne⟩
  rw [hnone, List.reverse_eq_nil_iff, List.dropWhile_eq_nil_iff]
  constructor
  · intro h hmem
    simpa using h _ (List.mem_reverse.mpr hmem)
  · rintro h c hc
    exact decide_eq_true fun heq => h (heq ▸ List.mem_reverse.mp hc)

/-- **A text holds a document or none.** -/
theorem embedded_or_none (cs : List Char) :
    (∃ before document after, Embedded cs before document after) ∨ documentIn? cs = none := by
  by_cases hopen : '\x7b' ∈ cs
  · obtain ⟨before, rest, rfl, hbefore⟩ := List.eq_append_cons_of_mem hopen
    rcases splitLast?_cases '\x7d' rest with ⟨inside, after, -, rfl, hafter⟩ | ⟨-, hrest⟩
    · exact .inl ⟨before, '\x7b' :: (inside ++ ['\x7d']), after, by simp, hbefore, braced_cons inside, hafter⟩
    · refine .inr (documentIn?_eq_none_iff_not_mem.mpr ?_)
      rw [dropWhile_ne_append hbefore]
      exact not_or.mpr ⟨by decide, hrest⟩ ∘ List.mem_cons.mp
  · have hall : cs.dropWhile (· ≠ '\x7b') = [] :=
      List.dropWhile_eq_nil_iff.mpr fun c hc => decide_eq_true fun heq => hopen (heq ▸ hc)
    refine .inr (documentIn?_eq_none_iff_not_mem.mpr ?_)
    rw [hall]
    exact List.not_mem_nil

/-- **Which document is found**: the one that no brace opens before and none closes behind. -/
theorem documentIn?_eq_some_iff :
    documentIn? cs = some document ↔ ∃ before after, Embedded cs before document after := by
  constructor
  · intro h
    rcases embedded_or_none cs with ⟨before, other, after, hembedded⟩ | hnone
    · obtain rfl := Option.some.inj (h.symm.trans hembedded.documentIn?_eq)
      exact ⟨before, after, hembedded⟩
    · rw [hnone] at h
      cases h
  · rintro ⟨before, after, hembedded⟩
    exact hembedded.documentIn?_eq

/-- **Where none is found** there is none anywhere in the text. -/
theorem documentIn?_eq_none_iff : documentIn? cs = none ↔ ∀ document, Braced document → ¬document <:+: cs := by
  constructor
  · rintro h document hdocument ⟨lead, tail, rfl⟩
    obtain ⟨inside, rfl⟩ := hdocument.exists_inside
    refine documentIn?_eq_none_iff_not_mem.mp h ?_
    -- from the first opening brace on there is at least what this document has behind its own
    rw [List.append_assoc, List.cons_append, List.dropWhile_append]
    split <;> simp
  · intro h
    refine (embedded_or_none cs).resolve_left ?_
    rintro ⟨before, document, after, hembedded⟩
    exact h document hembedded.braced ⟨before, after, by rw [hembedded.parts, List.append_assoc]⟩

/-! ### The bytes of a text -/

/-- The bytes of characters. -/
def bytesOf (cs : List Char) : List UInt8 := cs.flatMap String.utf8EncodeChar

/-- The only byte of a character of ASCII. -/
def asciiByte (c : Char) : UInt8 := .ofNat c.toNat

theorem toNat_of_asciiByte_eq (hc : c.toNat < 128) {n : Nat} (h : asciiByte c = .ofNat n) : c.toNat = n % 256 := by
  have hnat := congrArg UInt8.toNat h
  rw [asciiByte, UInt8.toNat_ofNat', UInt8.toNat_ofNat'] at hnat
  omega

/-- **No byte of another character** is the byte of a character of ASCII. -/
theorem eq_of_mem_utf8EncodeChar (hc : c.toNat < 128) (h : asciiByte c ∈ String.utf8EncodeChar d) : d = c := by
  have hbyte : ∀ n, asciiByte c = .ofNat n → c.toNat = n % 256 := fun n => toNat_of_asciiByte_eq hc
  rw [String.utf8EncodeChar] at h
  -- a character behind ASCII is made of bytes from 128 on
  split at h
  · next hsmall =>
    have hsame := hbyte _ (List.mem_singleton.mp h)
    refine Char.toNat_inj.mp ?_
    rw [hsame, Nat.mod_eq_of_lt (by omega)]
    rfl
  · split at h
    · simp only [List.mem_cons, List.not_mem_nil, or_false] at h
      rcases h with h | h <;> have := hbyte _ h <;> omega
    · split at h
      · simp only [List.mem_cons, List.not_mem_nil, or_false] at h
        rcases h with h | h | h <;> have := hbyte _ h <;> omega
      · simp only [List.mem_cons, List.not_mem_nil, or_false] at h
        rcases h with h | h | h | h <;> have := hbyte _ h <;> omega

theorem utf8EncodeChar_ascii (hc : c.toNat < 128) : String.utf8EncodeChar c = [asciiByte c] := by
  have hsmall : c.val.toNat ≤ 127 := Nat.le_of_lt_succ hc
  rw [String.utf8EncodeChar]
  exact if_pos hsmall

theorem bytesOf_append (cs rest : List Char) : bytesOf (cs ++ rest) = bytesOf cs ++ bytesOf rest :=
  List.flatMap_append

theorem asciiByte_not_mem (hc : c.toNat < 128) (h : c ∉ cs) : asciiByte c ∉ bytesOf cs := by
  intro hmem
  obtain ⟨d, hd, hbyte⟩ := List.mem_flatMap.mp hmem
  exact h (eq_of_mem_utf8EncodeChar hc hbyte ▸ hd)

theorem bytesOf_cons (hc : c.toNat < 128) (rest : List Char) : bytesOf (c :: rest) = asciiByte c :: bytesOf rest := by
  rw [bytesOf, List.flatMap_cons, utf8EncodeChar_ascii hc]
  rfl

/-- The first byte of a character of ASCII stands right behind the bytes of what is before the character. -/
theorem idxOf_bytesOf (hc : c.toNat < 128) (h : c ∉ before) (rest : List Char) :
    (bytesOf (before ++ c :: rest)).idxOf (asciiByte c) = (bytesOf before).length := by
  rw [bytesOf_append, bytesOf_cons hc, List.idxOf_append_of_notMem (asciiByte_not_mem hc h), List.idxOf_cons_self,
    Nat.add_zero]

/-- And the last right before the bytes of what is behind it. -/
theorem idxOf_reverse_bytesOf (hc : c.toNat < 128) (h : c ∉ after) (lead : List Char) :
    (bytesOf (lead ++ c :: after)).reverse.idxOf (asciiByte c) = (bytesOf after).length := by
  have hnot : asciiByte c ∉ (bytesOf after).reverse := fun hmem =>
    asciiByte_not_mem hc h (List.mem_reverse.mp hmem)
  rw [bytesOf_append, bytesOf_cons hc, List.reverse_append, List.reverse_cons, List.append_assoc,
    List.idxOf_append_of_notMem hnot, List.singleton_append, List.idxOf_cons_self, Nat.add_zero, List.length_reverse]

/-- **What is cut out of a text**: a document, from the first byte of an opening brace to the last of a closing one, each
at the end of a character; or nothing, and then there is no document anywhere. -/
inductive CutOut (cs : List Char) : Option (List Char) → Prop where
  /-- a document -/
  | document {before document after : List Char} (embedded : Embedded cs before document after)
      (opening : (bytesOf cs).idxOf (asciiByte '\x7b') = (bytesOf before).length)
      (closing : (bytesOf cs).reverse.idxOf (asciiByte '\x7d') = (bytesOf after).length) : CutOut cs (some document)
  /-- nothing -/
  | nothing (absent : ∀ document, Braced document → ¬document <:+: cs) : CutOut cs none

theorem Embedded.cutOut (h : Embedded cs before document after) : CutOut cs (some document) := by
  obtain ⟨inside, hdocument⟩ := h.braced.exists_inside
  have hopened : cs = before ++ '\x7b' :: (inside ++ '\x7d' :: after) := by
    rw [h.parts, hdocument]
    simp
  have hclosed : cs = before ++ '\x7b' :: inside ++ '\x7d' :: after := by
    rw [hopened]
    simp
  refine .document h ?_ ?_
  · rw [hopened, idxOf_bytesOf (by decide) h.unopened]
  · rw [hclosed, idxOf_reverse_bytesOf (by decide) h.unclosed]

theorem cutOut_documentIn? (cs : List Char) : CutOut cs (documentIn? cs) := by
  cases hfound : documentIn? cs with
  | none => exact .nothing (documentIn?_eq_none_iff.mp hfound)
  | some document =>
    obtain ⟨before, after, hembedded⟩ := documentIn?_eq_some_iff.mp hfound
    exact hembedded.cutOut

/-! ### What comes of an answer -/

/-- Answers with one document are read alike. -/
theorem readDocument_congr {α : Type} {decode : Decoder α} {answer other : String}
    (h : documentIn? answer.toList = some document) (hother : documentIn? other.toList = some document) :
    readDocument decode answer = readDocument decode other := by
  simp only [readDocument, h, hother]

/-- A document with prose around it is read as it is by itself. -/
theorem readDocument_append {α : Type} {decode : Decoder α} {lead text tail : String} (hlead : '\x7b' ∉ lead.toList)
    (htext : Braced text.toList) (htail : '\x7d' ∉ tail.toList) :
    readDocument decode (lead ++ text ++ tail) = readDocument decode text := by
  have halone : Embedded text.toList [] text.toList [] :=
    ⟨(List.append_nil _).symm, List.not_mem_nil, htext, List.not_mem_nil⟩
  have hparts : (lead ++ text ++ tail).toList = lead.toList ++ (text.toList ++ tail.toList) := by
    rw [String.toList_append, String.toList_append, List.append_assoc]
  have hembedded : Embedded (lead ++ text ++ tail).toList lead.toList text.toList tail.toList :=
    ⟨hparts, hlead, htext, htail⟩
  exact readDocument_congr hembedded.documentIn?_eq halone.documentIn?_eq

/-- What cannot be read is no plan. -/
theorem readDocument_error {α : Type} {decode : Decoder α} {e : PlanningError}
    (h : readDocument decode answer = .error e) : ∃ detail, e = .invalidPlan detail := by
  rw [readDocument] at h
  split at h
  · exact ⟨_, (Except.error.inj h).symm⟩
  · split at h
    · exact ⟨_, (Except.error.inj h).symm⟩
    · cases h

theorem resolve_cases (k : Kernel) (name : String) :
    (∃ f, k.registry.find (trim name) = .ok f ∧ resolve k name = .ok f.view) ∨
      (∃ e, k.registry.find (trim name) = .error e) ∧ resolve k name = .error (.functionNotFound name) := by
  rw [resolve]
  cases k.registry.find (trim name) with
  | ok f => exact .inl ⟨f, rfl, rfl⟩
  | error e => exact .inr ⟨⟨e, rfl⟩, rfl⟩

/-- **What comes of an answer with a choice**: a plan of one step or of none, no plan, or a function that is not there. -/
inductive ChoiceEnds (k : Kernel) (answer goal : String) : Except PlanningError Plan → Prop where
  /-- there is no choice to be read -/
  | unread {detail : String} (unread : readDocument Choice.decoder answer = .error (.invalidPlan detail)) :
      ChoiceEnds k answer goal (.error (.invalidPlan detail))
  /-- no function is chosen -/
  | unchosen {choice : Choice} {plan : Plan} (read : readDocument Choice.decoder answer = .ok choice)
      (blank : isBlankText choice.function) (steps : plan.steps = []) : ChoiceEnds k answer goal (.ok plan)
  /-- the function that is chosen is not there -/
  | missing {choice : Choice} (read : readDocument Choice.decoder answer = .ok choice)
      (absent : ∃ e, k.registry.find (trim choice.function) = .error e) :
      ChoiceEnds k answer goal (.error (.functionNotFound choice.function))
  /-- the function that is chosen is called -/
  | chosen {choice : Choice} {f : Function} {plan : Plan} (read : readDocument Choice.decoder answer = .ok choice)
      (found : k.registry.find (trim choice.function) = .ok f)
      (steps : plan.steps = [callOf f.view choice.arguments]) : ChoiceEnds k answer goal (.ok plan)

theorem choiceEnds (k : Kernel) (answer goal : String) : ChoiceEnds k answer goal (readChoice answer goal k) := by
  rw [readChoice]
  cases hread : readDocument Choice.decoder answer with
  | error e =>
    obtain ⟨detail, rfl⟩ := readDocument_error hread
    exact .unread hread
  | ok choice =>
    simp only [bind, Except.bind]
    split
    · next hblank => exact .unchosen hread hblank rfl
    · rcases resolve_cases k choice.function with ⟨f, hfound, hresolve⟩ | ⟨habsent, hresolve⟩
      · rw [hresolve]
        exact .chosen hread hfound (Plan.ofSteps_steps goal _)
      · rw [hresolve]
        exact .missing hread habsent

/-- **The step of a subtask**: it calls the function that the subtask names, with the arguments that it gives. -/
def Carries (k : Kernel) (t : Subtask) (s : PlanStep) : Prop :=
  ∃ f, k.registry.find (trim t.function) = .ok f ∧ Calls f s ∧
    ∀ name value, (argumentTexts t.arguments).get? name = some value → s.parameters.get? name = some value

/-- A subtask becomes a call of the function that it names, or there is no such function. -/
theorem stepOfSubtask_cases (k : Kernel) (t : Subtask) :
    (∃ f, k.registry.find (trim t.function) = .ok f ∧ stepOfSubtask k t = .ok (callOf f.view t.arguments)) ∨
      (∃ e, k.registry.find (trim t.function) = .error e) ∧
        stepOfSubtask k t = .error (.functionNotFound t.function) := by
  rw [stepOfSubtask]
  rcases resolve_cases k t.function with ⟨f, hfound, hresolve⟩ | ⟨habsent, hresolve⟩
  · exact .inl ⟨f, hfound, by rw [hresolve]; rfl⟩
  · exact .inr ⟨habsent, by rw [hresolve]; rfl⟩

/-- Subtasks become steps, one for each, up to the first whose function is not there. -/
theorem stepsOfSubtasks_cases (k : Kernel) (subtasks : List Subtask) :
    (∃ steps, subtasks.mapM (stepOfSubtask k) = .ok steps ∧ List.Forall₂ (Carries k) subtasks steps) ∨
      ∃ before t rest, subtasks = before ++ t :: rest ∧
        (∀ s ∈ before, ∃ f, k.registry.find (trim s.function) = .ok f) ∧
        (∃ e, k.registry.find (trim t.function) = .error e) ∧
        subtasks.mapM (stepOfSubtask k) = .error (.functionNotFound t.function) := by
  rcases mapM_cases (stepOfSubtask k) subtasks with
    ⟨steps, hsteps, hall⟩ | ⟨before, t, rest, e, rfl, hbefore, ht, hsteps⟩
  · refine .inl ⟨steps, hsteps, hall.imp fun t s hs => ?_⟩
    rcases stepOfSubtask_cases k t with ⟨f, hfound, hstep⟩ | ⟨-, hstep⟩
    · obtain rfl := Except.ok.inj (hstep.symm.trans hs)
      exact ⟨f, hfound, ⟨rfl, rfl⟩, fun _ _ h => h⟩
    · cases hstep.symm.trans hs
  · refine .inr ⟨before, t, rest, rfl, fun s hs => ?_, ?_⟩
    · obtain ⟨step, hstep⟩ := hbefore s hs
      rcases stepOfSubtask_cases k s with ⟨f, hfound, -⟩ | ⟨-, herror⟩
      · exact ⟨f, hfound⟩
      · cases herror.symm.trans hstep
    · rcases stepOfSubtask_cases k t with ⟨f, -, hstep⟩ | ⟨habsent, herror⟩
      · cases hstep.symm.trans ht
      · obtain rfl := Except.error.inj (herror.symm.trans ht)
        exact ⟨habsent, hsteps⟩

/-- The input of the answer takes the place of no argument. -/
theorem Carries.withTopInput {t : Subtask} {s : PlanStep} (h : Carries k t s) (input : String) :
    Carries k t (withTopInput input s) := by
  obtain ⟨f, hfound, hcalls, harguments⟩ := h
  refine ⟨f, hfound, hcalls.withTopInput input, fun name value hvalue => ?_⟩
  have hheld := harguments name value hvalue
  rw [Planner.withTopInput]
  split
  · exact hheld
  · next hadd =>
    -- there is no argument of the name yet
    have hother : name ≠ Variables.inputName := by
      rintro rfl
      simp [Dictionary.contains, hheld] at hadd
    exact (Dictionary.get?_insert_ne _ _ hother).trans hheld

/-- **What comes of an answer with subtasks**: a plan with one step for each, in order, no plan, or a function that is
not there. -/
inductive SubtasksEnds (k : Kernel) (answer goal : String) : Except PlanningError Plan → Prop where
  /-- there are no subtasks to be read -/
  | unread {detail : String} (unread : readDocument Breakdown.decoder answer = .error (.invalidPlan detail)) :
      SubtasksEnds k answer goal (.error (.invalidPlan detail))
  /-- there is no subtask -/
  | empty {breakdown : Breakdown} {detail : String} (read : readDocument Breakdown.decoder answer = .ok breakdown)
      (absent : breakdown.subtasks = []) : SubtasksEnds k answer goal (.error (.invalidPlan detail))
  /-- the function of a subtask is not there, and this is the first such -/
  | missing {breakdown : Breakdown} {before rest : List Subtask} {t : Subtask}
      (read : readDocument Breakdown.decoder answer = .ok breakdown)
      (split : breakdown.subtasks = before ++ t :: rest)
      (found : ∀ s ∈ before, ∃ f, k.registry.find (trim s.function) = .ok f)
      (absent : ∃ e, k.registry.find (trim t.function) = .error e) :
      SubtasksEnds k answer goal (.error (.functionNotFound t.function))
  /-- every subtask has its step -/
  | steps {breakdown : Breakdown} {plan : Plan} (read : readDocument Breakdown.decoder answer = .ok breakdown)
      (present : breakdown.subtasks ≠ []) (steps : List.Forall₂ (Carries k) breakdown.subtasks plan.steps) :
      SubtasksEnds k answer goal (.ok plan)

theorem subtasksEnds (k : Kernel) (answer goal : String) :
    SubtasksEnds k answer goal (readSubtasks answer goal k) := by
  rw [readSubtasks]
  cases hread : readDocument Breakdown.decoder answer with
  | error e =>
    obtain ⟨detail, rfl⟩ := readDocument_error hread
    exact .unread hread
  | ok breakdown =>
    simp only [bind, Except.bind]
    rcases stepsOfSubtasks_cases k breakdown.subtasks with
      ⟨steps, hsteps, hall⟩ | ⟨before, t, rest, hsplit, hfound, habsent, hsteps⟩
    · rw [hsteps]
      generalize hsubtasks : breakdown.subtasks = subtasks at hall
      cases hall with
      | nil => exact .empty hread hsubtasks
      | @cons t s subtasks steps hfirst hrest =>
        have hsteps : List.Forall₂ (Carries k) breakdown.subtasks
            (Plan.ofSteps goal (withTopInput breakdown.input s :: steps)).steps := by
          rw [hsubtasks, Plan.ofSteps_steps]
          exact .cons (hfirst.withTopInput breakdown.input) hrest
        exact .steps hread (hsubtasks ▸ List.cons_ne_nil t subtasks) hsteps
    · rw [hsteps]
      exact .missing hread hsplit hfound habsent

/-- **Answers are read in their prose.** What stands before the document without opening a brace, and behind it without
closing one, makes no difference to what is read, or to the failure to read it. Whatever the answer, the cut is made
between characters, and the end is one of those above. -/
theorem read_embedded (k : Kernel) (goal : String) :
    (∀ lead text tail : String, '\x7b' ∉ lead.toList → Braced text.toList → '\x7d' ∉ tail.toList →
      readChoice (lead ++ text ++ tail) goal k = readChoice text goal k ∧
        readSubtasks (lead ++ text ++ tail) goal k = readSubtasks text goal k) ∧
      ∀ answer : String, CutOut answer.toList (documentIn? answer.toList) ∧
        ChoiceEnds k answer goal (readChoice answer goal k) ∧
        SubtasksEnds k answer goal (readSubtasks answer goal k) := by
  refine ⟨fun lead text tail hlead htext htail => ?_, fun answer =>
    ⟨cutOut_documentIn? answer.toList, choiceEnds k answer goal, subtasksEnds k answer goal⟩⟩
  rw [readChoice, readChoice, readSubtasks, readSubtasks, readDocument_append hlead htext htail,
    readDocument_append hlead htext htail]
  exact ⟨rfl, rfl⟩

/-- A kernel with a single function. -/
def writer : Kernel := .assembled [.register "file" (.echo "write")]

/-- Prose may close a brace before the document and open one behind it, and letters of any kind may stand there. -/
theorem read_embedded_prose :
    let lead := "Voilà\x7d → "
    let text := "\x7b\"plan\":\x7b\"function\":\"file.write\"\x7d,\"subtasks\":[\x7b\"function\":\"file.write\"\x7d]\x7d"
    let tail := " \x7b #END"
    let plan : Plan := { goal := "g", steps := [⟨"file", "write", ∅, [], none⟩] }
    '\x7b' ∉ lead.toList ∧ Braced text.toList ∧ '\x7d' ∉ tail.toList ∧
      readChoice (lead ++ text ++ tail) "g" writer = .ok plan ∧
      readSubtasks (lead ++ text ++ tail) "g" writer = .ok plan := by
  intro lead text tail plan
  have hlead : '\x7b' ∉ lead.toList := by decide
  have htext : Braced text.toList := ⟨by decide, by decide⟩
  have htail : '\x7d' ∉ tail.toList := by decide
  obtain ⟨hchoice, hsubtasks⟩ := (read_embedded writer "g").1 lead text tail hlead htext htail
  have hchosen : readChoice text "g" writer = .ok plan := by decide +kernel
  have hlisted : readSubtasks text "g" writer = .ok plan := by decide +kernel
  exact ⟨hlead, htext, htail, hchoice.trans hchosen, hsubtasks.trans hlisted⟩

end Orchestration.Planner
