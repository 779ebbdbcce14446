import Mathlib.Data.List.TakeWhile
import Orchestration.Proofs.SilentTurns

/-!
# Actions in answers

An action is written behind its mark as a document, and a document is made out by its braces: behind an opening there may
be pairs of braces, none inside another, and what closes it must end its line. An action whose document is not made out
leaves no trace in the turn, unless there is no thought either.

* `Step.Document` — the texts that are made out as documents.
* `Step.braced?_eq_some_iff`, `Step.actionAt?_eq_some_iff` — what is made out behind an opening and behind a mark.
* `Step.firstDocument_iff` — the first document of an answer is what is searched for.
* `Step.parse_reports_iff` — which actions are carried out or reported, and which are dropped.
* `Step.parse_drops_actions` — actions that are dropped.
-/

namespace Orchestration.Step

open Text

/-! ### Documents by their braces -/

/-- A text without braces. -/
def Unbraced (cs : List Char) : Prop := ∀ c ∈ cs, isBrace c = false

instance (cs : List Char) : Decidable (Unbraced cs) := List.decidableBAll _ cs

/-- **Pairs of braces**, none inside another, with text before each of them and in it. -/
inductive Paired : List Char → Prop where
  /-- no pair -/
  | nil : Paired []
  /-- a pair, and others behind it -/
  | pair {before inside rest : List Char} (hbefore : Unbraced before) (hinside : Unbraced inside)
      (hrest : Paired rest) : Paired (before ++ '\x7b' :: (inside ++ '\x7d' :: rest))

/-- What closes a document. -/
def IsClosing (cs : List Char) : Prop := cs = ['\x7d'] ∨ cs = ['\x7d', '\x7d']

/-- **What stands behind the opening of a document**: pairs of braces, text without any, and the closing. -/
inductive Body : List Char → Prop where
  /-- the pairs, the text and the closing -/
  | intro {pairs last closing : List Char} (hpairs : Paired pairs) (hlast : Unbraced last)
      (hclosing : IsClosing closing) : Body (pairs ++ (last ++ closing))

variable {cs before inside last closing pairs rest body text : List Char} {b : Char}

theorem unbraced_nil : Unbraced [] := fun _ hc => absurd hc List.not_mem_nil

theorem unbraced_append {first later : List Char} : Unbraced (first ++ later) ↔ Unbraced first ∧ Unbraced later :=
  List.forall_mem_append

theorem unbraced_beforeBrace (cs : List Char) : Unbraced (beforeBrace cs).1 := fun c hc => by
  simpa using List.mem_takeWhile_imp hc

theorem beforeBrace_append_eq (cs : List Char) : (beforeBrace cs).1 ++ (beforeBrace cs).2 = cs :=
  List.takeWhile_append_dropWhile

/-- The characters up to a brace are those before it. -/
theorem beforeBrace_append (h : Unbraced before) (hb : isBrace b = true) (rest : List Char) :
    beforeBrace (before ++ b :: rest) = (before, b :: rest) := by
  have hrun : ∀ c ∈ before, (!isBrace c) = true := fun c hc => by rw [h c hc]; rfl
  rw [beforeBrace, takeWhile_append_stop hrun (by rw [hb]; rfl), dropWhile_append_stop hrun (by rw [hb]; rfl)]

/-- A pair is recognised with the text before it. -/
theorem group?_pair (hbefore : Unbraced before) (hinside : Unbraced inside) (rest : List Char) :
    group? (before ++ '\x7b' :: (inside ++ '\x7d' :: rest)) = some (before ++ '\x7b' :: inside ++ ['\x7d'], rest) := by
  rw [group?, beforeBrace_append hbefore (by decide)]
  simp only [beforeBrace_append hinside (by decide : isBrace '\x7d' = true)]

theorem group?_eq_some {g : List Char} (h : group? cs = some (g, rest)) :
    ∃ before inside, Unbraced before ∧ Unbraced inside ∧ g = before ++ '\x7b' :: inside ++ ['\x7d'] ∧
      cs = before ++ '\x7b' :: (inside ++ '\x7d' :: rest) := by
  rw [group?] at h
  split at h
  · next before tail htail =>
    have hcs := beforeBrace_append_eq cs
    have hbefore := unbraced_beforeBrace cs
    rw [htail] at hcs hbefore
    split at h
    · next inside rest' hrest =>
      have htail' := beforeBrace_append_eq tail
      have hinside := unbraced_beforeBrace tail
      rw [hrest] at htail' hinside
      obtain ⟨rfl, rfl⟩ := Prod.mk.inj (Option.some.inj h)
      refine ⟨before, inside, hbefore, hinside, rfl, ?_⟩
      rw [← hcs, ← htail']
    · cases h
  · cases h

/-- No pair starts where a brace closes. -/
theorem group?_closing (h : Unbraced last) (rest : List Char) : group? (last ++ '\x7d' :: rest) = none := by
  rw [group?, beforeBrace_append h (by decide)]
  rfl

/-- As many pairs are taken as follow each other. -/
theorem groups_spec (bound : Nat) (cs : List Char) (h : cs.length ≤ bound) :
    Paired (groups bound cs).1 ∧ cs = (groups bound cs).1 ++ (groups bound cs).2 := by
  induction bound generalizing cs with
  | zero =>
    obtain rfl := List.eq_nil_of_length_eq_zero (Nat.le_zero.mp h)
    exact ⟨.nil, rfl⟩
  | succ bound ih =>
    rw [groups]
    split
    · exact ⟨.nil, rfl⟩
    · next g rest hgroup =>
      obtain ⟨before, inside, hbefore, hinside, rfl, rfl⟩ := group?_eq_some hgroup
      obtain ⟨hpaired, hrest⟩ := ih rest (by simp at h; omega)
      have hwhole := Paired.pair hbefore hinside hpaired
      constructor
      · simpa using hwhole
      · simpa using hrest

theorem groups_append (h : Paired pairs) (hrest : group? rest = none) {bound : Nat}
    (hbound : (pairs ++ rest).length ≤ bound) : groups bound (pairs ++ rest) = (pairs, rest) := by
  induction h generalizing bound with
  | nil =>
    cases bound with
    | zero =>
      obtain rfl := List.eq_nil_of_length_eq_zero (Nat.le_zero.mp hbound)
      rfl
    | succ bound => rw [List.nil_append, groups, hrest]
  | @pair before inside pairs hbefore hinside _ ih =>
    cases bound with
    | zero => simp at hbound
    | succ bound =>
      have hshorter : (pairs ++ rest).length ≤ bound := by
        simp at hbound ⊢
        omega
      have hmore := ih hshorter
      have hassoc : before ++ '\x7b' :: (inside ++ '\x7d' :: pairs) ++ rest =
          before ++ '\x7b' :: (inside ++ '\x7d' :: (pairs ++ rest)) := by simp
      rw [hassoc, groups, group?_pair hbefore hinside]
      simp only [hmore]
      simp

/-- A closing is one brace or two at the end of a line. -/
theorem close?_eq_some_iff : close? cs = some (closing, rest) ↔
    IsClosing closing ∧ endsLine rest = true ∧ cs = closing ++ rest := by
  constructor
  · intro h
    rw [close?.eq_def] at h
    split at h
    · next tail =>
      split at h
      · next hend =>
        obtain ⟨rfl, rfl⟩ := Prod.mk.inj (Option.some.inj h)
        exact ⟨.inl rfl, hend, rfl⟩
      · split at h
        · next tail' =>
          split at h
          · next hend =>
            obtain ⟨rfl, rfl⟩ := Prod.mk.inj (Option.some.inj h)
            exact ⟨.inr rfl, hend, rfl⟩
          · cases h
        · cases h
    · cases h
  · rintro ⟨rfl | rfl, hend, rfl⟩
    · simp only [List.singleton_append, close?.eq_def, if_pos hend]
    · have hsecond : ¬endsLine ('\x7d' :: rest) = true := by simp [endsLine]
      simp only [List.cons_append, List.nil_append, close?.eq_def, if_neg hsecond, if_pos hend]

/-- **What is made out behind an opening** is a body that ends its line. -/
theorem braced?_eq_some_iff : braced? cs = some (body, rest) ↔
    Body body ∧ endsLine rest = true ∧ cs = body ++ rest := by
  constructor
  · intro h
    obtain ⟨hpairs, hcs⟩ := groups_spec cs.length cs (Nat.le_refl _)
    rw [braced?] at h
    cases hgroups : groups cs.length cs with
    | mk pairs tail =>
      rw [hgroups] at h hpairs hcs
      have htail := beforeBrace_append_eq tail
      have hlast := unbraced_beforeBrace tail
      cases hbefore : beforeBrace tail with
      | mk last tail' =>
        rw [hbefore] at htail hlast
        simp only [hbefore] at h
        obtain ⟨⟨closing, rest'⟩, hclose, heq⟩ := Option.map_eq_some_iff.mp h
        obtain ⟨rfl, rfl⟩ := Prod.mk.inj heq
        obtain ⟨hclosing, hend, rfl⟩ := close?_eq_some_iff.mp hclose
        have hbody := Body.intro hpairs hlast hclosing
        rw [← List.append_assoc] at hbody
        exact ⟨hbody, hend, by rw [hcs, ← htail]; simp⟩
  · rintro ⟨hbody, hend, rfl⟩
    cases hbody with
    | @intro pairs last closing hpairs hlast hclosing =>
      -- the pairs end where the closing begins
      obtain ⟨more, hmore⟩ : ∃ more, closing ++ rest = '\x7d' :: more := by
        rcases hclosing with rfl | rfl <;> exact ⟨_, rfl⟩
      have hassoc : pairs ++ (last ++ closing) ++ rest = pairs ++ (last ++ '\x7d' :: more) := by
        rw [← hmore]
        simp
      have hgroups := groups_append hpairs (group?_closing hlast more) (Nat.le_refl _)
      have hclose := close?_eq_some_iff.mpr ⟨hclosing, hend, rfl⟩
      rw [hmore] at hclose
      rw [hassoc, braced?, hgroups]
      simp only [beforeBrace_append hlast (by decide : isBrace '\x7d' = true), hclose, Option.map_some,
        List.append_assoc]

/-! ### Documents behind a mark -/

/-- **A document**: a body behind one opening brace, or behind two. -/
inductive Document : List Char → Prop where
  /-- behind one brace -/
  | single {body : List Char} (hbody : Body body) : Document ('\x7b' :: body)
  /-- behind two -/
  | double {body : List Char} (hbody : Body body) : Document ('\x7b' :: '\x7b' :: body)

/-- **The document that is made out** before the rest of an answer: it ends its line, and it is opened by two braces only
if nothing can be made out behind the first. -/
inductive DocumentBefore (rest : List Char) : List Char → Prop where
  /-- behind one brace -/
  | single {body : List Char} (hbody : Body body) (hend : endsLine rest = true) : DocumentBefore rest ('\x7b' :: body)
  /-- behind two -/
  | double {body : List Char} (hbody : Body body) (hend : endsLine rest = true)
      (honly : ∀ other behind, Body other → endsLine behind = true → '\x7b' :: (body ++ rest) ≠ other ++ behind) :
      DocumentBefore rest ('\x7b' :: '\x7b' :: body)

variable {document : List Char}

theorem DocumentBefore.isDocument (h : DocumentBefore rest document) : Document document ∧ endsLine rest = true := by
  cases h with
  | single hbody hend => exact ⟨.single hbody, hend⟩
  | double hbody hend _ => exact ⟨.double hbody, hend⟩

/-- **An action is written** at the start of a text, with the document behind its mark. -/
def ActionAt (cs document rest : List Char) : Prop :=
  ∃ before, Unbraced before ∧ DocumentBefore rest document ∧ cs = actionMark.toList ++ (before ++ (document ++ rest))

/-- **What is made out behind a mark** is an action with its document. -/
theorem actionAt?_eq_some_iff : actionAt? cs = some (document, rest) ↔ ActionAt cs document rest := by
  constructor
  · intro h
    rw [actionAt?] at h
    split at h
    · cases h
    · next tail htail =>
      obtain rfl := List.isPrefixOf?_eq_some_iff_append_eq.mp htail
      have hbefore := beforeBrace_append_eq tail
      have hunbraced := unbraced_beforeBrace tail
      split at h
      · next opened hopened =>
        rw [hopened] at hbefore
        refine ⟨(beforeBrace tail).1, hunbraced, ?_⟩
        split at h
        · next body rest' hbraced =>
          obtain ⟨rfl, rfl⟩ := Prod.mk.inj (Option.some.inj h)
          obtain ⟨hbody, hend, rfl⟩ := braced?_eq_some_iff.mp hbraced
          exact ⟨.single hbody hend, by rw [List.cons_append, hbefore]⟩
        · next hnone =>
          split at h
          · next opened' =>
            obtain ⟨⟨body, rest'⟩, hbraced, heq⟩ := Option.map_eq_some_iff.mp h
            obtain ⟨rfl, rfl⟩ := Prod.mk.inj heq
            obtain ⟨hbody, hend, rfl⟩ := braced?_eq_some_iff.mp hbraced
            refine ⟨.double hbody hend fun other behind hother hbehind he => ?_, ?_⟩
            · rw [braced?_eq_some_iff.mpr ⟨hother, hbehind, he⟩] at hnone
              cases hnone
            · rw [List.cons_append, List.cons_append, hbefore]
          · cases h
      · cases h
  · rintro ⟨before, hbefore, hdocument, rfl⟩
    rw [actionAt?, isPrefixOf?_append]
    cases hdocument with
    | @single body hbody hend =>
      have hbraced := braced?_eq_some_iff.mpr ⟨hbody, hend, rfl⟩
      simp only [List.cons_append, beforeBrace_append hbefore (by decide : isBrace '\x7b' = true), hbraced]
    | @double body hbody hend honly =>
      have hbraced := braced?_eq_some_iff.mpr ⟨hbody, hend, rfl⟩
      have hnone : braced? ('\x7b' :: (body ++ rest)) = none := by
        refine Option.eq_none_iff_forall_ne_some.mpr fun ⟨other, behind⟩ hother => ?_
        obtain ⟨hother, hbehind, he⟩ := braced?_eq_some_iff.mp hother
        exact honly other behind hother hbehind he
      simp only [List.cons_append, beforeBrace_append hbefore (by decide : isBrace '\x7b' = true), hnone, hbraced,
        Option.map_some]

/-- Where a document ends its line behind a mark, one is made out. -/
theorem isSome_actionAt? (hbefore : Unbraced before) (hdocument : Document document) (hend : endsLine rest = true) :
    (actionAt? (actionMark.toList ++ (before ++ (document ++ rest)))).isSome := by
  rw [Option.isSome_iff_exists]
  cases hdocument with
  | single hbody => exact ⟨_, actionAt?_eq_some_iff.mpr ⟨before, hbefore, .single hbody hend, rfl⟩⟩
  | @double body hbody =>
    by_cases hother : ∃ other behind, Body other ∧ endsLine behind = true ∧ '\x7b' :: (body ++ rest) = other ++ behind
    · obtain ⟨other, behind, hbody', hbehind, he⟩ := hother
      refine ⟨('\x7b' :: other, behind), actionAt?_eq_some_iff.mpr ⟨before, hbefore, .single hbody' hbehind, ?_⟩⟩
      simp only [List.cons_append, he]
    · refine ⟨_, actionAt?_eq_some_iff.mpr ⟨before, hbefore, .double hbody hend ?_, rfl⟩⟩
      exact fun other behind hbody' hbehind he => hother ⟨other, behind, hbody', hbehind, he⟩

/-- **The first document** of a text: no action is written before its mark. -/
def FirstDocument (cs document : List Char) : Prop :=
  ∃ lead start rest, cs = lead ++ start ∧ ActionAt start document rest ∧
    ∀ s, s <:+ lead → s ≠ [] → ∀ other rest, ¬ActionAt (s ++ start) other rest

theorem declined_actionAt?_iff {lead start : List Char} : Declined actionAt? lead start ↔
    ∀ s, s <:+ lead → s ≠ [] → ∀ other rest, ¬ActionAt (s ++ start) other rest := by
  refine forall_congr' fun s => forall_congr' fun _ => forall_congr' fun _ => ?_
  rw [Option.eq_none_iff_forall_ne_some, Prod.forall]
  exact forall_congr' fun other => forall_congr' fun rest => not_congr actionAt?_eq_some_iff

/-- **The first document is what is searched for.** -/
theorem firstDocument_iff : FirstDocument cs document ↔ (findAll actionAt? cs).head? = some document := by
  constructor
  · rintro ⟨lead, start, rest, rfl, hstart, hlead⟩
    have hfound := actionAt?_eq_some_iff.mpr hstart
    have hmark : actionMark.toList = '[' :: "ACTION]".toList := rfl
    obtain ⟨before, -, -, rfl⟩ := hstart
    rw [hmark, List.cons_append] at hfound hlead ⊢
    rw [findAll_append_plain (declined_actionAt?_iff.mpr hlead), head?_findAll hfound]
  · intro h
    obtain ⟨lead, start, rest, rfl, hstart, hlead⟩ := exists_of_head?_findAll h
    exact ⟨lead, start, rest, rfl, actionAt?_eq_some_iff.mp hstart, declined_actionAt?_iff.mp hlead⟩

/-! ### Actions that are reported -/

/-- An answer without its backticks. -/
def unfenced (response : String) : List Char := response.toList.filter (· ≠ '\x60')

theorem actionText?_eq_some_iff {response : String} : actionText? response.toList = some text ↔
    ∃ document, FirstDocument (unfenced response) document ∧ text = single document := by
  rw [actionText?, Option.map_eq_some_iff]
  exact exists_congr fun document => and_congr firstDocument_iff.symm eq_comm

/-- The document is read as an action without a name. -/
def Nameless (document : List Char) : Prop :=
  ∃ a, Action.decoder.read? (.ofList (single document)) = some a ∧ a.name = ""

/-- The turn has an action, or an observation of what is wrong. -/
def Reports (s : Step) : Prop := s.action ≠ "" ∨ s.observation ≠ ""

instance (s : Step) : Decidable s.Reports := inferInstanceAs (Decidable (_ ∨ _))

/-- With the note that there is nothing in it, a turn reports what it did before, or that it has no thought. -/
theorem reports_noted_iff (s : Step) : s.noted.Reports ↔ s.Reports ∨ s.thought = "" := by
  rw [noted]
  split
  · next h =>
    simp only [Bool.and_eq_true, String.isEmpty_iff] at h
    have hnote : emptyAnswer ≠ "" := by decide
    exact iff_of_true (.inr hnote) (.inr h.1.1)
  · next h =>
    simp only [Bool.and_eq_true, String.isEmpty_iff, not_and_or] at h
    rw [Reports]
    tauto

theorem invalid_ne_empty (text : String) : s!"System step parsing error, invalid JSON: {text}" ≠ "" := by
  intro h
  have hlength := congrArg String.length h
  simp only [toString, String.length_append, String.length_empty] at hlength
  have hmark : "System step parsing error, invalid JSON: ".length = 41 := rfl
  omega

/-- **An action is reported or carried out** in an answer that is not final, if there is no thought in it, or a document
is made out and is not one of an action without a name. In all other answers it is dropped without a word. -/
theorem parse_reports_iff (response : String) (hopen : (parse response).finalAnswer = "") :
    (parse response).Reports ↔ ¬BlankFinal response ∧ (thoughtOf response = "" ∨
      ∃ document, FirstDocument (unfenced response) document ∧ ¬Nameless document) := by
  rw [blankFinal_iff]
  cases hfinal : finalAnswer? response.toList with
  | some answer =>
    -- a final answer that is none is blank
    rw [parse_of_finalAnswer? hfinal] at hopen ⊢
    obtain rfl : answer = [] := by simpa using hopen
    simp [Reports]
  | none =>
    rw [parse, hfinal]
    simp only [reduceCtorEq, not_false_eq_true, true_and]
    cases htext : actionText? response.toList with
    | none =>
      have hnone : ¬∃ document, FirstDocument (unfenced response) document ∧ ¬Nameless document := by
        rintro ⟨document, hdocument, -⟩
        rw [actionText?_eq_some_iff.mpr ⟨document, hdocument, rfl⟩] at htext
        cases htext
      rw [reports_noted_iff]
      simp [Reports, hnone]
    | some text =>
      obtain ⟨document, hdocument, rfl⟩ := actionText?_eq_some_iff.mp htext
      -- there is one first document
      have honly : (∃ document, FirstDocument (unfenced response) document ∧ ¬Nameless document) ↔
          ¬Nameless document := by
        refine ⟨?_, fun h => ⟨document, hdocument, h⟩⟩
        rintro ⟨other, hother, h⟩
        obtain rfl := Option.some.inj ((firstDocument_iff.mp hother).symm.trans (firstDocument_iff.mp hdocument))
        exact h
      rw [honly, Nameless]
      simp only
      split
      · next a ha =>
        rw [reports_noted_iff]
        simp [Reports, ha, or_comm]
      · next hunread =>
        rw [reports_noted_iff]
        refine iff_of_true (.inl (.inr (invalid_ne_empty _))) (.inr ?_)
        rintro ⟨a, ha, -⟩
        rw [hunread] at ha
        cases ha

/-! ### Actions that are dropped -/

/-- A line of the answer begins with the mark of an action, blanks aside. -/
def HasActionLine (response : String) : Prop :=
  ∃ line ∈ lineList response.toList, actionMark.toList <+: dropBlanks line

instance (response : String) : Decidable (HasActionLine response) :=
  inferInstanceAs (Decidable (∃ line ∈ lineList response.toList, _))

/-- The action of an answer that is not final is dropped without a word. -/
def Drops (response : String) : Prop :=
  HasActionLine response ∧ (parse response).finalAnswer = "" ∧ ¬(parse response).Reports

instance (response : String) : Decidable (Drops response) := inferInstanceAs (Decidable (_ ∧ _ ∧ _))

/-- **Actions are dropped without a word** that cannot be made out: with a blank behind them, with a carriage return
behind them, with braces inside others, without a name, and without a document. -/
theorem parse_drops_actions :
    Drops "[THOUGHT] add\n[ACTION] \x7b\"action\": \"math.add\"\x7d " ∧
      Drops "[THOUGHT] add\n[ACTION] \x7b\"action\": \"math.add\"\x7d\r\n" ∧
      Drops "[THOUGHT] add\n[ACTION] \x7b\"action\": \"math.add\", \"action_variables\": \x7b\"input\": \x7b\"a\": \x7b\x7d\x7d\x7d\x7d" ∧
      Drops "[THOUGHT] add\n[ACTION] \x7b\"action_variables\": \x7b\"input\": \"2\"\x7d\x7d" ∧
      Drops "[THOUGHT] add\n[ACTION] math.add" := by
  decide +kernel

/-- An action in lines of its own, between backticks and with its braces doubled, is made out. -/
theorem parse_reports_iff_fenced :
    let response := "[THOUGHT] add\n[ACTION]\n```\n\x7b\x7b\"action\": \"math.add\", \"action_variables\": \x7b\x7d\x7d\x7d\n```"
    (parse response).finalAnswer = "" ∧ (parse response).Reports ∧ thoughtOf response ≠ "" ∧
      ∃ document, FirstDocument (unfenced response) document ∧ ¬Nameless document := by
  intro response
  have hopen : (parse response).finalAnswer = "" := by decide +kernel
  have hreports : (parse response).Reports := by decide +kernel
  have hthought : thoughtOf response ≠ "" := by decide +kernel
  exact ⟨hopen, hreports, hthought, ((parse_reports_iff response hopen).mp hreports).2.resolve_left hthought⟩

end Orchestration.Step
