import Orchestration.Proofs.JsonTrees

/-!
# What is read was written

A reader finds nothing in a text that does not stand there. What it takes for a text literal is one, any other token
stands outside of all quotes, and the tree that it makes of tokens has just these tokens; so whatever is found in an
object was one of its fields.

* `JsonToken.Literal` — what stands between the quotes of a literal, part by part.
* `JsonToken.readParts?_literal` — the reader of literals reads nothing else.
* `JsonToken.readToken?_passes` — any other token has no quote in it.
* `Source.read?_eq_some_iff` — a text is read as the tree whose tokens it consists of.
* `Source.toJson?_cases` — what a tree is read as.
* `Source.exists_fields` — what is found in an object under a name was written under that name.
-/

namespace Orchestration

open Number

namespace JsonToken

variable {cs rest after literal : List Char} {parts : List Part} {token : JsonToken} {tokens later : List JsonToken}
  {bound : Nat}

/-! ### Token after token -/

/-- More steps than are needed find the same tokens. -/
theorem scanWithin?_succ (h : scanWithin? bound cs = some tokens) : scanWithin? (bound + 1) cs = some tokens := by
  induction bound generalizing cs tokens with
  | zero =>
    rw [scanWithin?] at h
    split at h
    · next hempty =>
      rw [scanWithin?, List.isEmpty_iff.mp hempty]
      exact h
    · cases h
  | succ bound ih =>
    rw [scanWithin?] at h ⊢
    split at h
    · exact h
    · obtain ⟨⟨token, rest⟩, hread, h⟩ := Option.bind_eq_some_iff.mp h
      obtain ⟨later, hlater, h⟩ := Option.bind_eq_some_iff.mp h
      cases h
      simp only [hread, ih hlater, bind, Option.bind, pure]

/-- Characters consist of one list of tokens only. -/
theorem Scans.unique (hscans : Scans cs later) (h : scanWithin? bound cs = some tokens) : tokens = later := by
  have hmore (n : Nat) : scanWithin? (bound + n) cs = some tokens := by
    induction n with
    | zero => exact h
    | succ n ih => exact scanWithin?_succ ih
  have hboth := hscans (bound + cs.length) (Nat.le_add_left _ _)
  rw [hmore] at hboth
  exact Option.some.inj hboth

/-- A token is scanned, and then the others. -/
theorem exists_of_scanWithin?_cons {c : Char} (hc : isSpace c = false)
    (h : scanWithin? bound (c :: cs) = some tokens) :
    ∃ token rest later steps, readToken? (c :: cs) = some (token, rest) ∧ scanWithin? steps rest = some later ∧
      tokens = token :: later ∧ steps < bound := by
  have hdrop : (c :: cs).dropWhile isSpace = c :: cs := by rw [List.dropWhile_cons, hc]; rfl
  cases bound with
  | zero =>
    rw [scanWithin?, hdrop] at h
    cases h
  | succ bound =>
    rw [scanWithin?, hdrop] at h
    obtain ⟨⟨token, rest⟩, hread, h⟩ := Option.bind_eq_some_iff.mp h
    obtain ⟨later, hlater, h⟩ := Option.bind_eq_some_iff.mp h
    cases h
    exact ⟨token, rest, later, bound, hread, hlater, rfl, Nat.lt_succ_self _⟩

theorem scanWithin?_space {c : Char} (hc : isSpace c = true) (cs : List Char) :
    scanWithin? bound (c :: cs) = scanWithin? bound cs := by
  have hdrop : (c :: cs).dropWhile isSpace = cs.dropWhile isSpace := by rw [List.dropWhile_cons, hc]; rfl
  cases bound with
  | zero => rw [scanWithin?, scanWithin?, hdrop]
  | succ bound => rw [scanWithin?, scanWithin?, hdrop]

/-- A written text is scanned as that text. -/
theorem exists_of_scanWithin?_writeString {s : String}
    (h : scanWithin? bound (Json.writeString s ++ cs) = some tokens) :
    ∃ later steps, scanWithin? steps cs = some later ∧ tokens = .string (some s) :: later := by
  have hread := readToken?_writeString s cs
  have hliteral : Json.writeString s ++ cs = '"' :: (s.toList.flatMap Json.escape ++ '"' :: cs) := by
    simp [Json.writeString]
  rw [hliteral] at h hread
  obtain ⟨token, rest, later, steps, hread', hlater, rfl, -⟩ := exists_of_scanWithin?_cons (by decide) h
  cases hread.symm.trans hread'
  exact ⟨later, steps, hlater, rfl⟩

/-! ### Literals -/

/-- **A text literal** between its quotes, and its parts. -/
inductive Literal : List Char → List Part → Prop where
  | nil : Literal [] []
  /-- a character that stands for itself -/
  | plain {c : Char} {cs : List Char} {parts : List Part} (hquote : c ≠ '"') (hslash : c ≠ '\\')
      (hcontrol : ¬c.toNat < 32) (h : Literal cs parts) : Literal (c :: cs) (.char c :: parts)
  /-- a backslash and a letter for a character -/
  | named {e c : Char} {cs : List Char} {parts : List Part} (he : escaped? e = some c) (h : Literal cs parts) :
      Literal ('\\' :: e :: cs) (.char c :: parts)
  /-- a backslash and the number of a unit -/
  | unit {a b c d : Char} {n : Nat} {cs : List Char} {parts : List Part} (hunit : hexUnit? a b c d = some n)
      (h : Literal cs parts) : Literal ('\\' :: 'u' :: a :: b :: c :: d :: cs) (.unit n :: parts)

/-- **What is read as a literal is one**, up to the quote that closes it. -/
theorem readParts?_literal (h : readParts? cs = some (parts, after)) :
    ∃ literal, cs = literal ++ '"' :: after ∧ Literal literal parts := by
  fun_induction readParts? cs generalizing parts after with
  | case1 => cases h
  | case2 rest =>
    cases h
    exact ⟨[], rfl, .nil⟩
  | case3 a b c d rest n parts' after' hrest hunit ih =>
    cases h
    obtain ⟨literal, rfl, hliteral⟩ := ih hrest
    exact ⟨_, rfl, .unit hunit hliteral⟩
  | case4 => cases h
  | case5 e rest hu c parts' after' hrest he ih =>
    cases h
    obtain ⟨literal, rfl, hliteral⟩ := ih hrest
    exact ⟨_, rfl, .named he hliteral⟩
  | case6 => cases h
  | case7 => cases h
  | case8 c rest hquote hu hnamed hplain ih =>
    obtain ⟨⟨parts', after'⟩, hrest, heq⟩ := Option.map_eq_some_iff.mp h
    cases heq
    obtain ⟨literal, rfl, hliteral⟩ := ih hrest
    obtain ⟨hslash, hcontrol⟩ := not_or.mp hplain
    exact ⟨_, rfl, .plain hquote hslash hcontrol hliteral⟩

/-- No digit of a unit is a quote. -/
theorem hexUnit?_ne_quote {a b c d : Char} {n : Nat} (h : hexUnit? a b c d = some n) :
    a ≠ '"' ∧ b ≠ '"' ∧ c ≠ '"' ∧ d ≠ '"' := by
  have hquote : hexValue? '"' = none := by decide
  refine ⟨?_, ?_, ?_, ?_⟩
  all_goals
    rintro rfl
    simp [hexUnit?, hquote] at h

/-- A quote stands behind a character that is none. -/
theorem exists_cons_before_quote {c : Char} {before : List Char} (hc : c ≠ '"') (h : c :: cs = before ++ '"' :: after) :
    ∃ others, before = c :: others ∧ cs = others ++ '"' :: after := by
  cases before with
  | nil => exact absurd (List.cons.inj h).1 hc
  | cons first others =>
    obtain ⟨rfl, hrest⟩ := List.cons.inj h
    exact ⟨others, rfl, hrest⟩

/-- **A quote within a literal** stands behind a backslash. -/
theorem Literal.exists_slash_before_quote (h : Literal literal parts) {before : List Char}
    (heq : literal = before ++ '"' :: after) : ∃ earlier, before = earlier ++ ['\\'] := by
  -- each piece of the literal stands before the quote, unless it is the one that the quote is in
  induction h generalizing before with
  | nil => simp at heq
  | plain hquote hslash hcontrol h ih =>
    obtain ⟨others, rfl, hrest⟩ := exists_cons_before_quote hquote heq
    obtain ⟨earlier, rfl⟩ := ih hrest
    exact ⟨_ :: earlier, rfl⟩
  | @named e c cs parts he h ih =>
    obtain ⟨others, rfl, hrest⟩ := exists_cons_before_quote (by decide) heq
    cases others with
    | nil => exact ⟨[], rfl⟩
    | cons first others =>
      obtain ⟨rfl, hlater⟩ := List.cons.inj hrest
      obtain ⟨earlier, rfl⟩ := ih hlater
      exact ⟨'\\' :: e :: earlier, rfl⟩
  | unit hunit h ih =>
    obtain ⟨ha, hb, hc, hd⟩ := hexUnit?_ne_quote hunit
    obtain ⟨_, rfl, heq₁⟩ := exists_cons_before_quote (by decide) heq
    obtain ⟨_, rfl, heq₂⟩ := exists_cons_before_quote (by decide) heq₁
    obtain ⟨_, rfl, heq₃⟩ := exists_cons_before_quote ha heq₂
    obtain ⟨_, rfl, heq₄⟩ := exists_cons_before_quote hb heq₃
    obtain ⟨_, rfl, heq₅⟩ := exists_cons_before_quote hc heq₄
    obtain ⟨_, rfl, heq₆⟩ := exists_cons_before_quote hd heq₅
    obtain ⟨earlier, rfl⟩ := ih heq₆
    exact ⟨'\\' :: 'u' :: _ :: _ :: _ :: _ :: earlier, rfl⟩

/-! ### How much a literal says -/

/-- A text that is written in a literal as it is: without quotes, backslashes and controls. -/
def Verbatim (cs : List Char) : Prop := ∀ c ∈ cs, c ≠ '"' ∧ c ≠ '\\' ∧ ¬c.toNat < 32

instance (cs : List Char) : Decidable (Verbatim cs) := List.decidableBAll _ cs

/-- The parts of a literal make a character each at most. -/
theorem length_joinParts? {text : List Char} (h : joinParts? parts = some text) : text.length ≤ parts.length := by
  fun_induction joinParts? parts generalizing text with
  | case1 =>
    cases h
    exact Nat.le_refl 0
  | case2 c rest ih =>
    obtain ⟨later, hlater, rfl⟩ := Option.map_eq_some_iff.mp h
    exact Nat.succ_le_succ (ih hlater)
  | case3 high low rest hhigh hlow ih =>
    obtain ⟨later, hlater, rfl⟩ := Option.map_eq_some_iff.mp h
    exact Nat.le_succ_of_le (Nat.succ_le_succ (ih hlater))
  | case4 => cases h
  | case5 => cases h
  | case6 high low rest hhigh hlow ih =>
    obtain ⟨later, hlater, rfl⟩ := Option.map_eq_some_iff.mp h
    exact Nat.succ_le_succ (ih hlater)
  | case7 => cases h
  | case8 n rest hunit hhalf ih =>
    obtain ⟨later, hlater, rfl⟩ := Option.map_eq_some_iff.mp h
    exact Nat.succ_le_succ (ih hlater)

/-- A literal has at least a character for each part, and no more only where it says its text as it is. -/
theorem Literal.length_parts (h : Literal literal parts) :
    parts.length ≤ literal.length ∧ (parts.length = literal.length → Verbatim literal) := by
  induction h with
  | nil => exact ⟨Nat.le_refl 0, fun _ => nofun⟩
  | plain hquote hslash hcontrol h ih =>
    refine ⟨Nat.succ_le_succ ih.1, fun heq => List.forall_mem_cons.mpr ⟨⟨hquote, hslash, hcontrol⟩, ?_⟩⟩
    exact ih.2 (Nat.succ.inj heq)
  | named he h ih =>
    simp only [List.length_cons]
    exact ⟨by omega, fun heq => by omega⟩
  | unit hunit h ih =>
    simp only [List.length_cons]
    exact ⟨by omega, fun heq => by omega⟩

/-- How many characters of text a token says. -/
def letters : JsonToken → Nat
  | .string (some text) => text.length
  | _ => 0

/-- **A literal says no more than it is long**, and no less only if it says its text as it is. -/
theorem readString?_eq_some (h : readString? cs = some (token, after)) :
    ∃ literal parts, cs = literal ++ '"' :: after ∧ Literal literal parts ∧ token.letters ≤ literal.length ∧
      (token.letters = literal.length → Verbatim literal) := by
  obtain ⟨⟨parts, rest⟩, hparts, heq⟩ := Option.map_eq_some_iff.mp h
  obtain ⟨rfl, rfl⟩ := Prod.mk.inj heq
  obtain ⟨literal, rfl, hliteral⟩ := readParts?_literal hparts
  obtain ⟨hle, hverbatim⟩ := hliteral.length_parts
  have hletters : letters (.string ((joinParts? parts).map .ofList)) ≤ parts.length := by
    cases htext : joinParts? parts with
    | none => exact Nat.zero_le _
    | some text =>
      have hlength := length_joinParts? htext
      simpa [letters] using hlength
  exact ⟨literal, parts, rfl, hliteral, Nat.le_trans hletters hle,
    fun hsame => hverbatim (Nat.le_antisymm hle (hsame ▸ hletters))⟩

/-! ### Other tokens -/

/-- What is left is the text behind some characters none of which is a quote. -/
def Passes (cs rest : List Char) : Prop := ∃ passed, cs = passed ++ rest ∧ '"' ∉ passed

theorem Passes.refl (cs : List Char) : Passes cs cs := ⟨[], rfl, List.not_mem_nil⟩

theorem Passes.trans {middle : List Char} (h : Passes cs middle) (h' : Passes middle rest) : Passes cs rest := by
  obtain ⟨first, rfl, hfirst⟩ := h
  obtain ⟨second, rfl, hsecond⟩ := h'
  exact ⟨first ++ second, (List.append_assoc ..).symm, by simp [hfirst, hsecond]⟩

theorem passes_cons {c : Char} (hc : c ≠ '"') (cs : List Char) : Passes (c :: cs) cs :=
  ⟨[c], rfl, by simpa using hc.symm⟩

theorem passes_append {passed : List Char} (h : '"' ∉ passed) (rest : List Char) : Passes (passed ++ rest) rest :=
  ⟨passed, rfl, h⟩

theorem passes_spanDigits (cs : List Char) : Passes cs (spanDigits cs).2 := by
  refine ⟨cs.takeWhile Char.isDigit, List.takeWhile_append_dropWhile.symm, fun hquote => ?_⟩
  exact absurd (List.all_eq_true.mp List.all_takeWhile _ hquote) (by decide)

theorem passes_readSign (cs : List Char) : Passes cs (readSign cs).2 := by
  unfold readSign
  split
  · exact passes_cons (by decide) _
  · exact passes_cons (by decide) _
  · exact .refl _

theorem passes_splitMinus (cs : List Char) : Passes cs (splitMinus cs).2 := by
  unfold splitMinus
  split
  · exact passes_cons (by decide) _
  · exact .refl _

theorem passes_splitWhole (cs : List Char) : Passes cs (splitWhole cs).2 := by
  unfold splitWhole
  split
  · exact passes_cons (by decide) _
  · exact passes_spanDigits _

theorem readFraction?_passes {fraction : List Char} (h : readFraction? cs = some (fraction, rest)) :
    Passes cs rest := by
  unfold readFraction? at h
  split at h
  · next cs =>
    have hdigits := passes_spanDigits cs
    split at h
    next ds after hspan =>
    rw [hspan] at hdigits
    split at h
    · cases h
    · cases h
      exact (passes_cons (by decide) cs).trans hdigits
  · cases h
    exact .refl _

theorem readPower?_passes {power : Option Int} (h : readPower? cs = some (power, rest)) : Passes cs rest := by
  unfold readPower? at h
  split at h
  · cases h
    exact .refl _
  · next c cs =>
    split at h
    · next hmark =>
      have hc : c ≠ '"' := by rintro rfl; simp at hmark
      have hsign := (passes_cons hc cs).trans (passes_readSign cs)
      split at h
      next negative behind hreadSign =>
      rw [hreadSign] at hsign
      have hdigits := passes_spanDigits behind
      split at h
      next ds after hspan =>
      rw [hspan] at hdigits
      split at h
      · cases h
      · cases h
        exact hsign.trans hdigits
    · cases h
      exact .refl _

theorem readNumber?_passes (h : readNumber? cs = some (token, rest)) : Passes cs rest ∧ token.letters = 0 := by
  rw [readNumber?_eq] at h
  split at h
  · cases h
  · obtain ⟨⟨fraction, afterFraction⟩, hfraction, h⟩ := Option.bind_eq_some_iff.mp h
    obtain ⟨⟨power, afterPower⟩, hpower, h⟩ := Option.bind_eq_some_iff.mp h
    cases h
    have hwhole := (passes_splitMinus cs).trans (passes_splitWhole _)
    exact ⟨(hwhole.trans (readFraction?_passes hfraction)).trans (readPower?_passes hpower), rfl⟩

theorem readWord?_passes (h : readWord? cs = some (token, rest)) : Passes cs rest ∧ token.letters = 0 := by
  have hword {word : String} (hquote : '"' ∉ word.toList) {after : List Char}
      (hafter : word.toList.isPrefixOf? cs = some after) : Passes cs after := by
    rw [← List.isPrefixOf?_eq_some_iff_append_eq.mp hafter]
    exact passes_append hquote after
  unfold readWord? at h
  split at h
  · next after hafter =>
    cases h
    exact ⟨hword (by decide) hafter, rfl⟩
  · split at h
    · next after hafter =>
      cases h
      exact ⟨hword (by decide) hafter, rfl⟩
    · obtain ⟨after, hafter, heq⟩ := Option.map_eq_some_iff.mp h
      cases heq
      exact ⟨hword (by decide) hafter, rfl⟩

/-- **A token that begins with no quote** has none in it, and says no text. -/
theorem readToken?_passes {c : Char} (hc : c ≠ '"') (h : readToken? (c :: cs) = some (token, rest)) :
    Passes (c :: cs) rest ∧ token.letters = 0 := by
  unfold readToken? at h
  split at h
  case h_1 => cases h
  case h_8 heq => exact absurd (List.cons.inj heq).1 hc
  case h_9 heq =>
    cases heq
    split at h
    · exact readNumber?_passes h
    · exact readWord?_passes h
  -- any other token is a mark, a single character
  all_goals
    next heq =>
    cases heq
    cases h
    exact ⟨passes_cons hc _, rfl⟩

end JsonToken

/-- The fields of an object are those of a dictionary. -/
theorem Json.ofFields_eq (fields : List (String × Json)) :
    Json.ofFields fields = .object (Dictionary.ofList fields).entries := by
  have hentries : (Dictionary.ofList fields).entries = fields.foldl (fun held f => insertEntry f.1 f.2 held) [] :=
    (List.foldl_hom (fun d : Dictionary Json => d.entries) fun _ _ => rfl).symm
  rw [hentries, Json.ofFields]

/-! ### From tokens to trees -/

namespace Source

variable {tokens rest : List JsonToken} {tree : Source}

theorem itemTokens_cons (item : Source) {items : List Source} (h : items ≠ []) :
    itemTokens (item :: items) = item.tokens ++ .comma :: itemTokens items := by
  cases items with
  | nil => exact absurd rfl h
  | cons next items => rfl

theorem fieldTokens_cons (name : Option String) (value : Source) {fields : List (Option String × Source)}
    (h : fields ≠ []) :
    fieldTokens ((name, value) :: fields) = .string name :: .colon :: value.tokens ++ .comma :: fieldTokens fields := by
  cases fields with
  | nil => exact absurd rfl h
  | cons next fields => rfl

mutual

/-- **The tokens of a tree that is read** are those it is read from, by induction on the steps of the reader. -/
theorem eq_tokens_of_readTree? : ∀ (bound : Nat) {tokens rest : List JsonToken} {tree : Source},
    readTree? bound tokens = some (tree, rest) → tokens = tree.tokens ++ rest
  | 0, _, _, _, h => by cases h
  | bound + 1, tokens, rest, tree, h => by
    unfold readTree? at h
    split at h
    · cases h; rfl
    · cases h; rfl
    · cases h; rfl
    · cases h; rfl
    · cases h; rfl
    · obtain ⟨⟨items, after⟩, hitems, heq⟩ := Option.map_eq_some_iff.mp h
      cases heq
      have hwritten := (eq_tokens_of_readItems? bound hitems).2
      simp [Source.tokens, hwritten]
    · cases h; rfl
    · obtain ⟨⟨fields, after⟩, hfields, heq⟩ := Option.map_eq_some_iff.mp h
      cases heq
      have hwritten := (eq_tokens_of_readFields? bound hfields).2
      simp [Source.tokens, hwritten]
    · cases h

theorem eq_tokens_of_readItems? : ∀ (bound : Nat) {tokens rest : List JsonToken} {items : List Source},
    readItems? bound tokens = some (items, rest) → items ≠ [] ∧ tokens = itemTokens items ++ .rightBracket :: rest
  | 0, _, _, _, h => by cases h
  | bound + 1, tokens, rest, items, h => by
    unfold readItems? at h
    obtain ⟨⟨item, after⟩, hitem, h⟩ := Option.bind_eq_some_iff.mp h
    rw [eq_tokens_of_readTree? bound hitem]
    simp only at h
    split at h
    · cases h
      exact ⟨List.cons_ne_nil _ _, rfl⟩
    · obtain ⟨⟨others, later⟩, hothers, heq⟩ := Option.bind_eq_some_iff.mp h
      cases heq
      obtain ⟨hne, hwritten⟩ := eq_tokens_of_readItems? bound hothers
      refine ⟨List.cons_ne_nil _ _, ?_⟩
      rw [hwritten, itemTokens_cons item hne, List.append_assoc, List.cons_append]
    · cases h

theorem eq_tokens_of_readFields? : ∀ (bound : Nat) {tokens rest : List JsonToken}
    {fields : List (Option String × Source)}, readFields? bound tokens = some (fields, rest) →
      fields ≠ [] ∧ tokens = fieldTokens fields ++ .rightBrace :: rest
  | 0, _, _, _, h => by cases h
  | bound + 1, tokens, rest, fields, h => by
    unfold readFields? at h
    split at h
    · next name behind =>
      obtain ⟨⟨value, after⟩, hvalue, h⟩ := Option.bind_eq_some_iff.mp h
      rw [eq_tokens_of_readTree? bound hvalue]
      simp only at h
      split at h
      · cases h
        exact ⟨List.cons_ne_nil _ _, by simp [fieldTokens]⟩
      · obtain ⟨⟨others, later⟩, hothers, heq⟩ := Option.bind_eq_some_iff.mp h
        cases heq
        obtain ⟨hne, hwritten⟩ := eq_tokens_of_readFields? bound hothers
        refine ⟨List.cons_ne_nil _ _, ?_⟩
        simp [hwritten, fieldTokens_cons name value hne]
      · cases h
    · cases h

end

/-- **A text is read as the tree whose tokens it consists of**, and as nothing else. -/
theorem read?_eq_some_iff {s : String} : read? s = some tree ↔ JsonToken.scan? s = some tree.tokens := by
  refine ⟨fun h => ?_, read?_of_scan?⟩
  obtain ⟨tokens, hscan, h⟩ := Option.bind_eq_some_iff.mp h
  rw [hscan]
  split at h
  · next written hread =>
    cases h
    rw [eq_tokens_of_readTree? _ hread, List.append_nil]
  · cases h

/-! ### What is found was written -/

variable {fields : List (Option String × Source)} {named : List (String × Json)} {depth : Nat}

theorem exists_of_mem_fieldsToJson? {name : String} {value : Json} (h : fieldsToJson? depth fields = some named)
    (hmem : (name, value) ∈ named) : ∃ tree, (some name, tree) ∈ fields ∧ tree.toJson? depth = some value := by
  induction fields generalizing named with
  | nil =>
    rw [fieldsToJson?] at h
    cases h
    cases hmem
  | cons field fields ih =>
    obtain ⟨firstName, first⟩ := field
    unfold fieldsToJson? at h
    split at h
    · next firstValue others htree hothers =>
      cases h
      rcases List.mem_cons.mp hmem with heq | hmem
      · cases heq
        exact ⟨first, List.mem_cons_self, htree⟩
      · obtain ⟨later, hlater, hvalue⟩ := ih hothers hmem
        exact ⟨later, List.mem_cons_of_mem _ hlater, hvalue⟩
    · cases h

/-- **What a tree is read as**: a text literal as its text, an object as the dictionary of its fields, and anything else
as what is no text and has no fields. -/
theorem toJson?_cases {j : Json} (h : tree.toJson? depth = some j) :
    (∃ s, tree = .string (some s) ∧ j = .string s) ∨
    (∃ fields inner named, tree = .object fields ∧ fieldsToJson? inner fields = some named ∧ j = .ofFields named) ∨
    ((∀ s, j ≠ .string s) ∧ ∀ name, j.field? name = none) := by
  cases tree with
  | string text =>
    obtain ⟨s, rfl, rfl⟩ := Option.map_eq_some_iff.mp h
    exact .inl ⟨s, rfl, rfl⟩
  | object fields =>
    rw [toJson?] at h
    split at h
    · next inner henter =>
      obtain ⟨named, hnamed, rfl⟩ := Option.map_eq_some_iff.mp h
      exact .inr (.inl ⟨fields, inner, named, rfl, hnamed, rfl⟩)
    · cases h
  | array items =>
    rw [toJson?] at h
    split at h
    · obtain ⟨values, -, rfl⟩ := Option.map_eq_some_iff.mp h
      exact .inr (.inr ⟨nofun, fun _ => rfl⟩)
    · cases h
  | number numeral isWhole =>
    obtain ⟨n, -, rfl⟩ := Option.map_eq_some_iff.mp h
    exact .inr (.inr ⟨nofun, fun _ => rfl⟩)
  | bool b =>
    cases h
    exact .inr (.inr ⟨nofun, fun _ => rfl⟩)
  | null =>
    cases h
    exact .inr (.inr ⟨nofun, fun _ => rfl⟩)

/-- **What is found in an object** under names was written as its fields under these names. -/
theorem exists_fields {j : Json} {name : String} {value : Json} (h : tree.toJson? depth = some j)
    (hfield : j.field? name = some value) :
    ∃ fields inner, tree = .object fields ∧ ∀ name value, j.field? name = some value →
      ∃ written, (some name, written) ∈ fields ∧ written.toJson? inner = some value := by
  rcases toJson?_cases h with ⟨s, rfl, rfl⟩ | ⟨fields, inner, named, rfl, hnamed, rfl⟩ | ⟨-, hnone⟩
  · cases hfield
  · refine ⟨fields, inner, rfl, fun name value hfield => ?_⟩
    rw [Json.ofFields_eq] at hfield
    have hmem := Dictionary.mem_of_mem_ofList (mem_of_lookupEntry_eq_some hfield)
    exact exists_of_mem_fieldsToJson? hnamed hmem
  · cases (hnone name).symm.trans hfield

/-- A text that is found was written as a text. -/
theorem eq_string_of_toJson? {s : String} (h : tree.toJson? depth = some (.string s)) : tree = .string (some s) := by
  rcases toJson?_cases h with ⟨s, rfl, heq⟩ | ⟨fields, inner, named, rfl, -, heq⟩ | ⟨hstring, -⟩
  · cases heq
    rfl
  · cases heq
  · exact absurd rfl (hstring s)

end Source

end Orchestration
