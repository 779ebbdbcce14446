import Mathlib.Algebra.GroupWithZero.Nat
import Mathlib.Algebra.Order.BigOperators.Group.List
import Mathlib.Algebra.Order.Group.Nat
import Mathlib.Data.List.Nodup
import Mathlib.Data.List.Perm.Subperm
import Orchestration.Proofs.ActionWords
import Orchestration.Proofs.JsonReading
import Orchestration.Proofs.RecentTurns

/-!
# The lines of actions

The scratchpad shows each action that it keeps as a document behind the mark. The variables are written as a document
should be, but the name stands between its quotes as it is; so the line tells the action just if nothing in the name
needs to be escaped. Any other name does not fit: it is cut short, read as something else, or breaks the document.

* `JsonToken.lettersIn` — how much text tokens say.
* `JsonToken.letters_within` — what stands between the quotes says no more than it is long, and less unless it is a text
  as it is.
* `Source.letters_le_of_fields` — an object says all that is found in it.
* `Scratchpad.tells_actionDocument_iff` — so an action is told if its name is written as it is, and only then.
* `Scratchpad.write_actionLines` — and these are the lines of the turns that are kept.
-/

namespace Orchestration

/-! ### How much is said -/

namespace JsonToken

/-- How many characters of text tokens say together. -/
def lettersIn (tokens : List JsonToken) : Nat := (tokens.map letters).sum

variable {tokens : List JsonToken} {token : JsonToken} {cs rest part : List Char} {bound : Nat}

@[simp] theorem lettersIn_nil : lettersIn [] = 0 := rfl

@[simp] theorem lettersIn_cons (token : JsonToken) (tokens : List JsonToken) :
    lettersIn (token :: tokens) = token.letters + lettersIn tokens := List.sum_cons

@[simp] theorem lettersIn_append (tokens later : List JsonToken) :
    lettersIn (tokens ++ later) = lettersIn tokens + lettersIn later := by
  rw [lettersIn, List.map_append, List.sum_append, lettersIn, lettersIn]

/-! ### Between the quotes -/

/-- No token starts with this letter. -/
theorem scanWithin?_letter (bound : Nat) (cs : List Char) : scanWithin? bound ('a' :: cs) = none := by
  cases h : scanWithin? bound ('a' :: cs) with
  | none => rfl
  | some tokens =>
    obtain ⟨token, rest, -, -, hread, -⟩ := exists_of_scanWithin?_cons (by decide) h
    cases hread

/-- **A literal closes** within the part between the quotes, or at the quote that should close it, or else that quote is
escaped and the next one closes it. -/
theorem readString?_within (h : readString? (part ++ '"' :: ',' :: '"' :: cs) = some (token, rest)) :
    (∃ literal later, part = literal ++ '"' :: later ∧ rest = later ++ '"' :: ',' :: '"' :: cs ∧
      token.letters ≤ literal.length) ∨
    (rest = ',' :: '"' :: cs ∧ token.letters ≤ part.length ∧ (token.letters = part.length → Verbatim part)) ∨
    rest = cs := by
  obtain ⟨literal, parts, heq, hliteral, hle, hverbatim⟩ := readString?_eq_some h
  rcases List.append_eq_append_iff.mp heq with ⟨beyond, rfl, hbeyond⟩ | ⟨left, rfl, hleft⟩
  · match beyond with
    | [] =>
      cases hbeyond
      rw [List.append_nil] at hle hverbatim
      exact .inr (.inl ⟨rfl, hle, hverbatim⟩)
    | [_] => cases hbeyond
    | [_, _] =>
      cases hbeyond
      exact .inr (.inr rfl)
    | _ :: _ :: _ :: beyond =>
      -- the quote behind the comma would have to be escaped by the comma
      cases hbeyond
      have hquote : part ++ '"' :: ',' :: '"' :: beyond = (part ++ ['"', ',']) ++ '"' :: beyond := by simp
      obtain ⟨earlier, hearlier⟩ := hliteral.exists_slash_before_quote hquote
      have hlast := congrArg List.getLast? hearlier
      simp at hlast
  · match left with
    | [] =>
      cases hleft
      rw [List.append_nil]
      exact .inr (.inl ⟨rfl, hle, hverbatim⟩)
    | _ :: later =>
      cases hleft
      exact .inl ⟨literal, later, rfl, rfl, hle⟩

/-- A part without quotes that is passed over was at the start. -/
theorem Passes.exists_append (h : Passes (part ++ '"' :: cs) rest) :
    ∃ later, rest = later ++ '"' :: cs ∧ later.length ≤ part.length := by
  obtain ⟨passed, heq, hquote⟩ := h
  rcases List.append_eq_append_iff.mp heq with ⟨beyond, rfl, hbeyond⟩ | ⟨left, rfl, hleft⟩
  · cases beyond with
    | nil => exact ⟨[], hbeyond.symm, Nat.zero_le _⟩
    | cons c beyond =>
      obtain ⟨rfl, -⟩ := List.cons.inj hbeyond
      simp at hquote
  · exact ⟨left, hleft, by simp⟩

/-- **Outside of literals** a part before the quote says less than it is long: the quote must close a literal that
began in the part, for a literal that begins at it would end in front of a letter. -/
theorem letters_outside (h : scanWithin? bound (part ++ '"' :: ',' :: '"' :: 'a' :: cs) = some tokens) :
    ∃ read later steps, tokens = read ++ later ∧ scanWithin? steps (',' :: '"' :: 'a' :: cs) = some later ∧
      lettersIn read < part.length := by
  -- each token takes a step, and the blanks in front of it take none
  induction bound using Nat.strong_induction_on generalizing part tokens with
  | _ bound ih =>
    induction part with
    | nil =>
      obtain ⟨token, rest, later, steps, hread, hlater, -, -⟩ := exists_of_scanWithin?_cons (by decide) h
      cases hread
      rw [scanWithin?_letter] at hlater
      cases hlater
    | cons c part ihspace =>
      by_cases hspace : isSpace c
      · rw [List.cons_append, scanWithin?_space hspace] at h
        obtain ⟨read, later, steps, htokens, hlater, hlt⟩ := ihspace h
        exact ⟨read, later, steps, htokens, hlater, Nat.lt_succ_of_lt hlt⟩
      · obtain ⟨token, rest, others, steps, hread, hothers, rfl, hsteps⟩ :=
          exists_of_scanWithin?_cons (by simpa using hspace) h
        by_cases hquote : c = '"'
        · subst hquote
          rcases readString?_within hread with ⟨literal, behind, rfl, rfl, hle⟩ | ⟨rfl, hle, -⟩ | rfl
          · obtain ⟨read, later, steps, rfl, hlater, hlt⟩ := ih steps hsteps hothers
            refine ⟨token :: read, later, steps, rfl, hlater, ?_⟩
            simp only [lettersIn_cons, List.length_cons, List.length_append]
            omega
          · refine ⟨[token], others, steps, rfl, hothers, ?_⟩
            simp only [lettersIn_cons, lettersIn_nil, List.length_cons]
            omega
          · rw [scanWithin?_letter] at hothers
            cases hothers
        · obtain ⟨hpasses, hnone⟩ := readToken?_passes hquote hread
          have hbehind : Passes ((c :: part) ++ '"' :: ',' :: '"' :: 'a' :: cs) rest := hpasses
          obtain ⟨behind, rfl, hle⟩ := hbehind.exists_append
          obtain ⟨read, later, steps, rfl, hlater, hlt⟩ := ih steps hsteps hothers
          refine ⟨token :: read, later, steps, rfl, hlater, ?_⟩
          rw [lettersIn_cons, hnone, Nat.zero_add]
          exact Nat.lt_of_lt_of_le hlt hle

/-- **Between the quotes** a part says no more than it is long, and no less only if it is a text as it is. -/
theorem letters_within (hread : readString? (part ++ '"' :: ',' :: '"' :: 'a' :: cs) = some (token, rest))
    (h : scanWithin? bound rest = some tokens) :
    ∃ read later steps, token :: tokens = read ++ later ∧ scanWithin? steps (',' :: '"' :: 'a' :: cs) = some later ∧
      lettersIn read ≤ part.length ∧ (lettersIn read = part.length → Verbatim part) := by
  rcases readString?_within hread with ⟨literal, behind, rfl, rfl, hle⟩ | ⟨rfl, hle, hverbatim⟩ | rfl
  · obtain ⟨read, later, steps, rfl, hlater, hlt⟩ := letters_outside h
    have hless : lettersIn (token :: read) < (literal ++ '"' :: behind).length := by
      simp only [lettersIn_cons, List.length_cons, List.length_append]
      omega
    exact ⟨token :: read, later, steps, rfl, hlater, Nat.le_of_lt hless, fun heq => absurd heq (Nat.ne_of_lt hless)⟩
  · exact ⟨[token], tokens, bound, rfl, h, hle, hverbatim⟩
  · rw [scanWithin?_letter] at h
    cases h

end JsonToken

namespace Source

open JsonToken

variable {tree : Source} {fields told : List (Option String × Source)} {depth : Nat} {d : Dictionary String}

/-! ### What an object says -/

/-- How much a field says, its name and its value together. -/
def fieldLetters (field : Option String × Source) : Nat := letters (.string field.1) + lettersIn field.2.tokens

theorem lettersIn_fieldTokens (fields : List (Option String × Source)) :
    lettersIn (fieldTokens fields) = (fields.map fieldLetters).sum := by
  induction fields with
  | nil => rfl
  | cons field fields ih =>
    obtain ⟨name, value⟩ := field
    have hcolon : letters .colon = 0 := rfl
    have hcomma : letters .comma = 0 := rfl
    cases fields with
    | nil => simp [fieldTokens, fieldLetters, hcolon]
    | cons next fields =>
      rw [fieldTokens_cons name value (List.cons_ne_nil next fields), List.map_cons, List.sum_cons, ← ih]
      simp [fieldLetters, hcolon, hcomma, Nat.add_assoc]

theorem lettersIn_object (fields : List (Option String × Source)) :
    lettersIn (Source.object fields).tokens = (fields.map fieldLetters).sum := by
  have hbraces : letters .leftBrace = 0 ∧ letters .rightBrace = 0 := ⟨rfl, rfl⟩
  simp [tokens, lettersIn_fieldTokens, hbraces]

/-- **An object says all** that any of its fields say. -/
theorem letters_le_of_fields (hnodup : told.Nodup) (h : told ⊆ fields) :
    (told.map fieldLetters).sum ≤ lettersIn (Source.object fields).tokens := by
  obtain ⟨among, hperm, hsublist⟩ := List.subperm_of_subset hnodup h
  rw [lettersIn_object, ← (hperm.map fieldLetters).sum_eq]
  exact (hsublist.map fieldLetters).sum_le_sum fun _ _ => Nat.zero_le _

/-- Texts under names, as they are written. -/
def ofTexts (d : Dictionary String) : Source := .object (d.entries.map fun e => (some e.1, .string (some e.2)))

theorem source?_ofTexts (d : Dictionary String) : (Json.ofTexts d).source? = some (.ofTexts d) := by
  simp [Json.ofTexts, Json.source?, Decoder.fieldSources?_texts, ofTexts]

theorem field?_ofTexts {e : String × String} (h : e ∈ d.entries) :
    (Json.ofTexts d).field? e.1 = some (.string e.2) := by
  have hnames : ((d.entries.map fun e => (e.1, Json.string e.2)).map Prod.fst).Nodup := by
    simpa [Function.comp_def] using d.nodup_names
  exact (lookupEntry_eq_some_iff hnames).mpr (List.mem_map_of_mem h)

/-- What is found to be texts under names says at least these names and texts. -/
theorem letters_le_of_texts (h : tree.toJson? depth = some (.ofTexts d)) :
    lettersIn (ofTexts d).tokens ≤ lettersIn tree.tokens := by
  by_cases hempty : d.entries = []
  · have hnone : lettersIn (ofTexts d).tokens = 0 := by rw [ofTexts, hempty]; rfl
    rw [hnone]
    exact Nat.zero_le _
  · obtain ⟨first, hfirst⟩ := List.exists_mem_of_ne_nil _ hempty
    obtain ⟨fields, inner, rfl, hfields⟩ := exists_fields h (field?_ofTexts hfirst)
    have hnodup : (d.entries.map fun e => (some e.1, Source.string (some e.2))).Nodup := by
      refine List.Nodup.map (fun e e' heq => ?_) (List.Nodup.of_map _ d.nodup_names)
      simpa [Prod.ext_iff] using heq
    rw [ofTexts, lettersIn_object]
    refine letters_le_of_fields hnodup fun field hfield => ?_
    obtain ⟨e, he, rfl⟩ := List.mem_map.mp hfield
    obtain ⟨written, hmem, hvalue⟩ := hfields _ _ (field?_ofTexts he)
    rwa [eq_string_of_toJson? hvalue] at hmem

/-- Texts under names are read as they are. -/
theorem toJson?_ofTexts (d : Dictionary String) (hdepth : 2 ≤ depth) :
    (ofTexts d).toJson? depth = some (.ofTexts d) := by
  have hentries (entries : List (String × String)) (depth : Nat) :
      fieldsToJson? depth (entries.map fun e => (some e.1, .string (some e.2))) =
        some (entries.map fun e => (e.1, .string e.2)) := by
    induction entries with
    | nil => rfl
    | cons e entries ih => simp [fieldsToJson?, ih, toJson?]
  have hordered : Json.ofFields (d.entries.map fun e => (e.1, .string e.2)) = .ofTexts d := by
    have hentries : d.entries.map (fun e => (e.1, Json.string e.2)) = (d.map fun _ => Json.string).entries := rfl
    rw [Json.ofFields_eq, hentries, Dictionary.ofList_entries]
    rfl
  have henter : enter? depth = some (depth - 1) := if_pos hdepth
  simp only [ofTexts, toJson?, henter, hentries, Option.map_some, hordered]

end Source

namespace Scratchpad

open Json JsonToken Number Source Text

variable {name : String} {arguments : Dictionary String} {tokens : List JsonToken}

/-! ### The document of an action -/

/-- The document in the line of an action. -/
def actionDocument (name : String) (arguments : Dictionary String) : String :=
  "\x7b\"action\": \"" ++ name ++ "\",\"action_variables\": " ++ (Json.ofTexts arguments).compact ++ "\x7d"

theorem actionLine_eq (s : Step) :
    actionLine s = Step.actionMark ++ " " ++ actionDocument s.action s.actionVariables := by
  have hopening : " \x7b\"action\": \"" = " " ++ "\x7b\"action\": \"" := rfl
  simp only [actionLine, actionDocument, hopening, String.append_assoc]

/-- **The document tells the action**: it is an object that has the name and the variables under theirs. -/
def Tells (document name : String) (arguments : Dictionary String) : Prop :=
  ∃ j, Json.read? document = some j ∧ j.field? "action" = some (.string name) ∧
    j.field? "action_variables" = some (.ofTexts arguments)

/-- **The document around its name**: the name stands between quotes, and what follows the quote behind it begins with
a comma and a letter in quotes. -/
theorem exists_behind_name (arguments : Dictionary String) :
    ∃ behind, (∀ name, (actionDocument name arguments).toList =
        '\x7b' :: (writeString "action" ++ ':' :: ' ' :: '"' :: (name.toList ++ '"' :: ',' :: '"' :: 'a' :: behind))) ∧
      Scans (',' :: '"' :: 'a' :: behind) (.comma :: .string (some "action_variables") :: .colon ::
        ((Source.ofTexts arguments).tokens ++ [.rightBrace])) := by
  have hopening : "\x7b\"action\": \"".toList = '\x7b' :: (writeString "action" ++ [':', ' ', '"']) := by decide
  have hsecond : "\",\"action_variables\": ".toList = '"' :: ',' :: '"' :: 'a' :: "ction_variables\": ".toList := by
    decide
  have hfield : '"' :: 'a' :: "ction_variables\": ".toList = writeString "action_variables" ++ [':', ' '] := by decide
  have hclosing : "\x7d".toList = ['\x7d'] := by decide
  refine ⟨"ction_variables\": ".toList ++ ((Json.ofTexts arguments).write ++ ['\x7d']), fun name => ?_, ?_⟩
  · simp only [actionDocument, compact, String.toList_append, String.toList_ofList, hopening, hsecond, hclosing,
      List.cons_append, List.append_assoc, List.nil_append]
  · have hclose := scans_mark '\x7d' .rightBrace (by decide) rfl scans_nil
    have harguments := scans_write hclose (stopsNumber_cons (by decide)) (Json.ofTexts arguments)
      (source?_ofTexts arguments)
    have hcolon := scans_mark ':' .colon (by decide) rfl (scans_blank (c := ' ') (by decide) harguments)
    rw [← List.cons_append, ← List.cons_append, hfield, List.append_assoc]
    exact scans_mark ',' .comma (by decide) rfl (scans_writeString hcolon)

/-- **The tokens of the document**, if it has any: they are those that should stand around the name, and between them
some that say no more than the name is long. -/
theorem exists_of_scan?_actionDocument (h : scan? (actionDocument name arguments) = some tokens) :
    ∃ read, tokens = [.leftBrace, .string (some "action"), .colon] ++ (read ++
      (.comma :: .string (some "action_variables") :: .colon :: ((Source.ofTexts arguments).tokens ++ [.rightBrace]))) ∧
        lettersIn read ≤ name.length ∧ (lettersIn read = name.length → Verbatim name.toList) := by
  obtain ⟨behind, hdocument, hbehind⟩ := exists_behind_name arguments
  rw [scan?, hdocument] at h
  -- the brace, the first field's name and the colon are scanned as they stand
  obtain ⟨_, _, _, _, hbrace, hopened, rfl, -⟩ := exists_of_scanWithin?_cons (by decide) h
  cases hbrace
  obtain ⟨_, _, hnamed, rfl⟩ := exists_of_scanWithin?_writeString hopened
  obtain ⟨_, _, _, _, hcolon, hblank, rfl, -⟩ := exists_of_scanWithin?_cons (by decide) hnamed
  cases hcolon
  rw [scanWithin?_space (by decide)] at hblank
  obtain ⟨token, rest, later, steps, hread, hlater, rfl, -⟩ := exists_of_scanWithin?_cons (by decide) hblank
  obtain ⟨read, others, steps, hsplit, hothers, hletters⟩ := letters_within hread hlater
  obtain rfl := hbehind.unique hothers
  rw [String.length_toList] at hletters
  refine ⟨read, ?_, hletters⟩
  rw [hsplit]
  rfl

/-- **A document that tells the action** has its name as it is: the object that is read must say the name and all else
that is told, and the document has no room for that if it says less between the quotes than stands there. -/
theorem verbatim_of_tells (h : Tells (actionDocument name arguments) name arguments) : Verbatim name.toList := by
  obtain ⟨j, hread, hname, harguments⟩ := h
  obtain ⟨tree, htree, hvalue⟩ := Option.bind_eq_some_iff.mp hread
  obtain ⟨read, htokens, hle, hverbatim⟩ := exists_of_scan?_actionDocument (read?_eq_some_iff.mp htree)
  obtain ⟨fields, inner, rfl, hfields⟩ := exists_fields hvalue hname
  obtain ⟨nameTree, hnamed, hnameTree⟩ := hfields _ _ hname
  obtain rfl := eq_string_of_toJson? hnameTree
  obtain ⟨argumentsTree, hgiven, hargumentsTree⟩ := hfields _ _ harguments
  have hnodup : [(some "action", Source.string (some name)), (some "action_variables", argumentsTree)].Nodup := by
    simp
  have htold := letters_le_of_fields hnodup (List.cons_subset.mpr ⟨hnamed, List.cons_subset.mpr ⟨hgiven, nofun⟩⟩)
  have hmore := letters_le_of_texts hargumentsTree
  rw [htokens] at htold
  have hmarks : letters .leftBrace = 0 ∧ letters .rightBrace = 0 ∧ letters .comma = 0 ∧ letters .colon = 0 :=
    ⟨rfl, rfl, rfl, rfl⟩
  have hletters (s : String) : letters (.string (some s)) = s.length := rfl
  simp only [List.map_cons, List.map_nil, List.sum_cons, List.sum_nil, fieldLetters, Source.tokens, lettersIn_cons,
    lettersIn_nil, lettersIn_append, List.cons_append, List.nil_append, hletters, hmarks] at htold
  refine hverbatim (Nat.le_antisymm hle ?_)
  omega

theorem escape_eq_singleton {c : Char} (hquote : c ≠ '"') (hslash : c ≠ '\\') (hcontrol : ¬c.toNat < 32) :
    escape c = [c] := by
  unfold escape
  split
  case h_1 => exact absurd rfl hquote
  case h_2 => exact absurd rfl hslash
  case h_8 => exact if_neg hcontrol
  -- what else has a letter of its own is a control
  all_goals exact absurd (by decide) hcontrol

/-- A text without anything to escape is written as it is. -/
theorem writeString_of_verbatim (h : Verbatim name.toList) : writeString name = '"' :: (name.toList ++ ['"']) := by
  have hescape : name.toList.flatMap escape = name.toList := by
    generalize name.toList = cs at h
    induction cs with
    | nil => rfl
    | cons c cs ih =>
      obtain ⟨⟨hquote, hslash, hcontrol⟩, hcs⟩ := List.forall_mem_cons.mp h
      rw [List.flatMap_cons, escape_eq_singleton hquote hslash hcontrol, ih hcs]
      rfl
  rw [writeString, hescape]
  rfl

/-- **A name that is the writing of a text** is read as that text, in an object of the two fields and nothing else. -/
theorem read?_actionDocument {told : String} (h : writeString told = '"' :: (name.toList ++ ['"']))
    (arguments : Dictionary String) :
    Json.read? (actionDocument name arguments) =
      some (.object [("action", .string told), ("action_variables", .ofTexts arguments)]) := by
  let tree : Source := .object [(some "action", .string (some told)), (some "action_variables", .ofTexts arguments)]
  obtain ⟨behind, hdocument, hbehind⟩ := exists_behind_name arguments
  have hscans : Scans (actionDocument name arguments).toList tree.tokens := by
    have hname : '"' :: (name.toList ++ '"' :: ',' :: '"' :: 'a' :: behind) =
        writeString told ++ ',' :: '"' :: 'a' :: behind := by
      simp [h]
    have hblank := scans_blank (c := ' ') (by decide) (scans_writeString (s := told) hbehind)
    have hfield := scans_writeString (s := "action") (scans_mark ':' .colon (by decide) rfl hblank)
    rw [hdocument, hname]
    exact scans_mark '\x7b' .leftBrace (by decide) rfl hfield
  have hread : Source.read? (actionDocument name arguments) = some tree :=
    read?_of_scan? (hscans _ (Nat.le_refl _))
  have henter : enter? depthLimit = some 127 := by decide
  have hfields : fieldsToJson? 127
      [(some "action", .string (some told)), (some "action_variables", .ofTexts arguments)] =
        some [("action", .string told), ("action_variables", .ofTexts arguments)] := by
    simp [fieldsToJson?, toJson?, toJson?_ofTexts]
  rw [Json.read?, hread, Option.bind_some, value?, toJson?]
  simp only [henter, hfields, Option.map_some, Json.ofFields, List.foldl_cons, List.foldl_nil, insertEntry,
    String.reduceLT, ↓reduceIte, String.reduceEq]

/-- **A line tells its action** just if the name has nothing in it that would have to be escaped. -/
theorem tells_actionDocument_iff (name : String) (arguments : Dictionary String) :
    Tells (actionDocument name arguments) name arguments ↔ Verbatim name.toList := by
  refine ⟨verbatim_of_tells, fun h => ?_⟩
  exact ⟨_, read?_actionDocument (writeString_of_verbatim h) arguments, rfl, rfl⟩

/-! ### Lines -/

/-- A line among others begins behind a new line, and a new line begins behind it. -/
theorem exists_intercalate {lines : List String} {line : String} (first : String) (h : line ∈ lines) :
    ∃ before after, "\n".intercalate (first :: lines) = first ++ before ++ "\n" ++ line ++ after ∧
      (after = "" ∨ ∃ more, after = "\n" ++ more) := by
  induction lines generalizing first with
  | nil => cases h
  | cons next lines ih =>
    rw [String.intercalate_cons_cons]
    rcases List.mem_cons.mp h with rfl | h
    · cases lines with
      | nil => exact ⟨"", "", by simp, .inl rfl⟩
      | cons second lines =>
        refine ⟨"", "\n" ++ "\n".intercalate (second :: lines), ?_, .inr ⟨_, rfl⟩⟩
        rw [String.intercalate_cons_cons]
        simp only [String.append_assoc, String.append_empty]
    · obtain ⟨before, after, htext, hafter⟩ := ih next h
      refine ⟨"\n" ++ next ++ before, after, ?_, hafter⟩
      rw [htext]
      simp only [String.append_assoc]

/-- The line of an action has no blanks at its ends. -/
theorem tight_actionLine (s : Step) : Tight (actionLine s).toList := by
  have hmark : Step.actionMark.toList = '[' :: "ACTION]".toList := by decide
  have hclosing : "\x7d".toList = ['\x7d'] := by decide
  have hhead : (actionLine s).toList.head? = some '[' := by
    rw [actionLine_eq, String.toList_append, String.toList_append, hmark]
    rfl
  have hlast : (actionLine s).toList.getLast? = some '\x7d' := by
    rw [actionLine, String.toList_append, hclosing, List.getLast?_concat]
  rw [Tight, hhead, hlast]
  constructor <;> rintro _ ⟨⟩ <;> decide

variable {steps : List Step} {i maxTokens : Nat}

/-- A turn that is kept has its action among the lines. -/
theorem actionLine_mem_linesFrom {k : Nat} (hi : i < steps.length) (hk : k ≤ i) (haction : steps[i].action ≠ "") :
    actionLine steps[i] ∈ linesFrom k steps := by
  induction hk using Nat.decreasingInduction with
  | self =>
    have hshown : actionLine steps[i] ∈ linesOf i steps[i] := by simp [linesOf, haction]
    rw [linesFrom_eq_append hi]
    exact List.mem_append_left _ hshown
  | of_succ k hk ih =>
    rw [linesFrom_eq_append (Nat.lt_trans hk hi)]
    exact List.mem_append_right _ ih

/-- What is left of nothing or of a new line and more is nothing or a new line and more. -/
theorem prefix_of_line_end {after : String} {kept : List Char} (h : after = "" ∨ ∃ more, after = "\n" ++ more)
    (hkept : kept <+: after.toList) : String.ofList kept = "" ∨ ∃ more, String.ofList kept = "\n" ++ more := by
  rcases h with rfl | ⟨more, rfl⟩
  · exact .inl (by rw [List.prefix_nil.mp hkept])
  · cases kept with
    | nil => exact .inl rfl
    | cons c kept =>
      have hfeed : "\n".toList = ['\n'] := by decide
      rw [String.toList_append, hfeed, List.singleton_append, List.cons_prefix_cons] at hkept
      exact .inr ⟨.ofList kept, by simp [hkept.1]⟩

/-- **The line of a turn that is kept** stands in the scratchpad as a whole. -/
theorem exists_write_eq {line : String} (htight : Tight line.toList) (hne : line ≠ "")
    (hline : line ∈ linesFrom (firstKept maxTokens steps) steps) :
    ∃ before after, write steps maxTokens = before ++ "\n" ++ line ++ after ∧
      (after = "" ∨ ∃ more, after = "\n" ++ more) := by
  cases steps with
  | nil =>
    rw [linesFrom, numbered, List.drop_nil] at hline
    cases hline
  | cons first later =>
    obtain ⟨before, after, htext, hafter⟩ := exists_intercalate heading (List.mem_cons_of_mem (thoughtLine first) hline)
    -- from the heading to the line nothing is trimmed, since neither begins or ends with a blank
    have hcore : Tight (heading ++ before ++ "\n" ++ line).toList := by
      have hmiddle := tight_heading.append (by decide) htight (by simpa using hne) (before ++ "\n").toList
      simpa only [String.toList_append, List.append_assoc] using hmiddle
    obtain ⟨kept, hkept, htrim⟩ := exists_trimChars_append hcore (by simp) after.toList
    refine ⟨heading ++ before, .ofList kept, ?_, prefix_of_line_end hafter hkept⟩
    have hlines : header (first :: later) ++ linesFrom (firstKept maxTokens (first :: later)) (first :: later) =
        heading :: thoughtLine first :: linesFrom (firstKept maxTokens (first :: later)) (first :: later) := rfl
    rw [(write_eq first later maxTokens).1, hlines, htext, trim, String.toList_append, htrim, String.ofList_append,
      String.ofList_toList]

/-- **The lines of actions**: for each turn that is kept and has an action, the scratchpad has a line of the mark and a
document, whatever the texts of the action are. The document tells the action, whatever its arguments are, if and only
if its name has no quote, no backslash and no control; and then the object has nothing but these two fields. -/
theorem write_actionLines (steps : List Step) (maxTokens : Nat) :
    ∀ i (hi : i < steps.length), firstKept maxTokens steps ≤ i → steps[i].action ≠ "" →
      (∃ before after, write steps maxTokens = before ++ "\n" ++ actionLine steps[i] ++ after ∧
        (after = "" ∨ ∃ more, after = "\n" ++ more)) ∧
      ∃ document, actionLine steps[i] = Step.actionMark ++ " " ++ document ∧
        (Tells document steps[i].action steps[i].actionVariables ↔ Verbatim steps[i].action.toList) ∧
        (Verbatim steps[i].action.toList → Json.read? document = some (.object
          [("action", .string steps[i].action), ("action_variables", .ofTexts steps[i].actionVariables)])) := by
  intro i hi hkept haction
  have hne : actionLine steps[i] ≠ "" := fun h => by simp [actionLine_eq, Step.actionMark] at h
  have hline := actionLine_mem_linesFrom hi hkept haction
  have hread (h : Verbatim steps[i].action.toList) := read?_actionDocument (writeString_of_verbatim h)
  refine ⟨?_, _, actionLine_eq _, tells_actionDocument_iff _ _, fun h => hread h _⟩
  exact exists_write_eq (tight_actionLine _) hne hline

/-- Any arguments are told under a name without anything to escape. -/
theorem write_actionLines_quoted :
    let step : Step := { action := "file.write", actionVariables := .ofList [("input", "\"a\\b\"\n\x01"), ("\"", "")] }
    firstKept 2000 [step] ≤ 0 ∧ step.action ≠ "" ∧ Verbatim step.action.toList ∧
      (∃ before after, write [step] 2000 = before ++ "\n" ++ actionLine step ++ after ∧
        (after = "" ∨ ∃ more, after = "\n" ++ more)) ∧
      ∃ document, actionLine step = Step.actionMark ++ " " ++ document ∧
        Tells document step.action step.actionVariables := by
  intro step
  have hkept : firstKept 2000 [step] ≤ 0 := by decide +kernel
  have haction : step.action ≠ "" := by decide
  have hverbatim : Verbatim step.action.toList := by decide
  obtain ⟨hline, document, hdocument, htells, -⟩ := write_actionLines [step] 2000 0 Nat.one_pos hkept haction
  exact ⟨hkept, haction, hverbatim, hline, document, hdocument, htells.mpr hverbatim⟩

/-- A name with a quote leaves a document that cannot be read; a name with a backslash is read as another. -/
theorem write_breaks_actions :
    let quoting : Step := { action := "say \"hi\"" }
    let escaping : Step := { action := "run\\now" }
    write [quoting] 2000 = heading ++ "\n[THOUGHT] \n[ACTION] " ++
        "\x7b\"action\": \"say \"hi\"\",\"action_variables\": \x7b\x7d\x7d" ∧
      actionLine quoting = Step.actionMark ++ " " ++ actionDocument quoting.action quoting.actionVariables ∧
      Source.read? (actionDocument quoting.action quoting.actionVariables) = none ∧
      ¬Tells (actionDocument quoting.action quoting.actionVariables) quoting.action quoting.actionVariables ∧
      write [escaping] 2000 = heading ++ "\n[THOUGHT] \n[ACTION] " ++
        "\x7b\"action\": \"run\\now\",\"action_variables\": \x7b\x7d\x7d" ∧
      Tells (actionDocument escaping.action escaping.actionVariables) "run\now" escaping.actionVariables := by
  intro quoting escaping
  refine ⟨by decide +kernel, actionLine_eq quoting, ?_, ?_, by decide +kernel, ?_⟩
  · have hscan : scan? (actionDocument quoting.action quoting.actionVariables) = none := by decide +kernel
    rw [Source.read?, hscan]
    rfl
  · exact (tells_actionDocument_iff _ _).not.mpr (by decide)
  · exact ⟨_, read?_actionDocument (by decide) _, rfl, rfl⟩

end Scratchpad

end Orchestration
