import Orchestration.Json.Decode
import Orchestration.Proofs.JsonLiterals
import Orchestration.Proofs.JsonNumbers
import Orchestration.Proofs.Traversals

/-!
# Documents, written and read

A document is read as the tree of what it describes, with its numbers as they are written and its fields in their order.

* `Json.source?` — the tree that a document should be read as.
* `JsonToken.scans_write` — the tokens of what is written are those of that tree.
* `Source.readTree?_tokens` — the tokens of any tree are read as that tree.
* `Source.read?_compact` — so a written document is read as its tree.
* `Decoder.record_of_fields` — a record reads an object of fields that it knows.
-/

namespace Orchestration

open Number

/-! ### What should be read -/

namespace Json

/-- The tree that a number should be read as, if digits can write it. -/
def numberSource? (n : JsonNumber) : Option Source :=
  match JsonToken.readNumber? (writeNumber n) with
  | some (.number numeral isWhole, []) => some (.number numeral isWhole)
  | _ => none

mutual

/-- The tree that a document should be read as. -/
def source? : Json → Option Source
  | .null => some .null
  | .bool b => some (.bool b)
  | .number n => numberSource? n
  | .string s => some (.string (some s))
  | .array items => (itemSources? items).map .array
  | .object fields => (fieldSources? fields).map .object

/-- The trees that documents in a row should be read as. -/
def itemSources? : List Json → Option (List Source)
  | [] => some []
  | item :: items =>
    match source? item, itemSources? items with
    | some tree, some trees => some (tree :: trees)
    | _, _ => none

/-- The named trees that named documents should be read as. -/
def fieldSources? : List (String × Json) → Option (List (Option String × Source))
  | [] => some []
  | (name, value) :: fields =>
    match source? value, fieldSources? fields with
    | some tree, some trees => some ((some name, tree) :: trees)
    | _, _ => none

end

theorem numberSource?_eq_some {n : JsonNumber} {tree : Source} (h : numberSource? n = some tree) :
    ∃ numeral isWhole, JsonToken.readNumber? (writeNumber n) = some (.number numeral isWhole, []) ∧
      tree = .number numeral isWhole := by
  rw [numberSource?] at h
  split at h
  · next numeral isWhole hread =>
    obtain rfl := Option.some.inj h
    exact ⟨numeral, isWhole, hread, rfl⟩
  · cases h

theorem itemSources?_cons {item : Json} {items : List Json} {trees : List Source}
    (h : itemSources? (item :: items) = some trees) :
    ∃ tree others, item.source? = some tree ∧ itemSources? items = some others ∧
      trees = tree :: others := by
  rw [itemSources?] at h
  split at h
  · next tree others htree hothers =>
    obtain rfl := Option.some.inj h
    exact ⟨tree, others, htree, hothers, rfl⟩
  · cases h

theorem fieldSources?_cons {name : String} {value : Json} {fields : List (String × Json)}
    {trees : List (Option String × Source)} (h : fieldSources? ((name, value) :: fields) = some trees) :
    ∃ tree others, value.source? = some tree ∧ fieldSources? fields = some others ∧
      trees = (some name, tree) :: others := by
  rw [fieldSources?] at h
  split at h
  · next tree others htree hothers =>
    obtain rfl := Option.some.inj h
    exact ⟨tree, others, htree, hothers, rfl⟩
  · cases h

end Json

namespace Source

mutual

/-- The tokens of a tree. -/
def tokens : Source → List JsonToken
  | .null => [.null]
  | .bool b => [.bool b]
  | .number numeral isWhole => [.number numeral isWhole]
  | .string text => [.string text]
  | .array items => .leftBracket :: itemTokens items ++ [.rightBracket]
  | .object fields => .leftBrace :: fieldTokens fields ++ [.rightBrace]

/-- The tokens of trees with commas between them. -/
def itemTokens : List Source → List JsonToken
  | [] => []
  | [item] => tokens item
  | item :: items => tokens item ++ .comma :: itemTokens items

/-- The tokens of named trees with commas between them. -/
def fieldTokens : List (Option String × Source) → List JsonToken
  | [] => []
  | [(name, value)] => .string name :: .colon :: tokens value
  | (name, value) :: fields => .string name :: .colon :: tokens value ++ .comma :: fieldTokens fields

end

end Source

/-! ### From characters to tokens -/

namespace JsonToken

open Json Source

/-- The characters consist of the tokens. -/
def Scans (cs : List Char) (tokens : List JsonToken) : Prop :=
  ∀ bound, cs.length ≤ bound → scanWithin? bound cs = some tokens

theorem scans_nil : Scans [] [] := by
  intro bound _
  cases bound <;> rfl

/-- A token and then the others. -/
theorem scans_token {c : Char} {cs rest : List Char} {token : JsonToken} {tokens : List JsonToken}
    (hspace : isSpace c = false) (hread : readToken? (c :: cs) = some (token, rest))
    (hlength : rest.length ≤ cs.length) (h : Scans rest tokens) : Scans (c :: cs) (token :: tokens) := by
  intro bound hbound
  cases bound with
  | zero => exact absurd hbound (Nat.not_succ_le_zero _)
  | succ bound =>
    have hdrop : (c :: cs).dropWhile isSpace = c :: cs := by
      rw [List.dropWhile_cons, hspace]
      rfl
    have hrest : scanWithin? bound rest = some tokens :=
      h bound (Nat.le_trans hlength (Nat.le_of_succ_le_succ hbound))
    rw [scanWithin?, hdrop]
    simp only [hread, hrest, bind, Option.bind, pure]

/-- A bracket, a comma or a colon. -/
theorem scans_mark (c : Char) (token : JsonToken) {cs : List Char} {tokens : List JsonToken}
    (hspace : isSpace c = false) (hread : readToken? (c :: cs) = some (token, cs))
    (h : Scans cs tokens) : Scans (c :: cs) (token :: tokens) :=
  scans_token hspace hread (Nat.le_refl _) h

theorem scans_writeString {s : String} {rest : List Char} {tokens : List JsonToken}
    (h : Scans rest tokens) : Scans (writeString s ++ rest) (.string (some s) :: tokens) := by
  have hread := readToken?_writeString s rest
  have hliteral : writeString s ++ rest = '"' :: (s.toList.flatMap escape ++ '"' :: rest) := by
    simp [writeString]
  rw [hliteral] at hread ⊢
  refine scans_token (by decide) hread ?_ h
  rw [List.length_append, List.length_cons]
  omega

/-- What a number begins with is a minus sign or a digit. -/
theorem readNumber?_head {cs : List Char} {token : JsonToken} {rest : List Char}
    (h : readNumber? cs = some (token, rest)) : ∃ c others, cs = c :: others ∧ (c = '-' ∨ c.isDigit = true) := by
  rw [readNumber?_eq] at h
  split at h
  · cases h
  · next hwhole =>
    cases cs with
    | nil => exact absurd rfl hwhole
    | cons c cs =>
      refine ⟨c, cs, rfl, Classical.or_iff_not_imp_left.mpr fun hminus => ?_⟩
      have hsplit : splitMinus (c :: cs) = (false, c :: cs) := by
        unfold splitMinus
        split
        · next heq => exact absurd (List.cons.inj heq).1 hminus
        · rfl
      rw [hsplit] at hwhole
      by_contra hdigit
      refine hwhole ?_
      have hspan : splitWhole (c :: cs) = spanDigits (c :: cs) := by
        unfold splitWhole
        split
        · next heq =>
          obtain ⟨rfl, -⟩ := List.cons.inj heq
          exact absurd rfl hdigit
        · rfl
      rw [hspan, spanDigits, List.takeWhile_cons_of_neg hdigit]
      rfl

/-- A minus sign or a digit starts a number. -/
theorem readToken?_number {c : Char} (hc : c = '-' ∨ c.isDigit = true) (cs : List Char) :
    isSpace c = false ∧ readToken? (c :: cs) = readNumber? (c :: cs) := by
  have hother : ∀ d : Char, d ≠ '-' → d.isDigit = false → c ≠ d := by
    rintro d hminus hdigit rfl
    rcases hc with rfl | hc
    · exact hminus rfl
    · rw [hc] at hdigit
      cases hdigit
  constructor
  · simp [isSpace, hother ' ' (by decide) rfl, hother '\n' (by decide) rfl, hother '\t' (by decide) rfl,
      hother '\r' (by decide) rfl]
  · unfold readToken?
    split
    · next heq => cases heq
    · next heq => exact absurd (List.cons.inj heq).1 (hother _ (by decide) rfl)
    · next heq => exact absurd (List.cons.inj heq).1 (hother _ (by decide) rfl)
    · next heq => exact absurd (List.cons.inj heq).1 (hother _ (by decide) rfl)
    · next heq => exact absurd (List.cons.inj heq).1 (hother _ (by decide) rfl)
    · next heq => exact absurd (List.cons.inj heq).1 (hother _ (by decide) rfl)
    · next heq => exact absurd (List.cons.inj heq).1 (hother _ (by decide) rfl)
    · next heq => exact absurd (List.cons.inj heq).1 (hother _ (by decide) rfl)
    · next heq =>
      obtain ⟨rfl, rfl⟩ := List.cons.inj heq
      refine if_pos ?_
      rcases hc with hc | hc <;> simp [hc]

theorem scans_writeNumber {n : JsonNumber} {tree : Source} {rest : List Char} {tokens : List JsonToken}
    (h : Scans rest tokens) (hrest : StopsNumber rest) (htree : numberSource? n = some tree) :
    Scans (writeNumber n ++ rest) (tree.tokens ++ tokens) := by
  obtain ⟨numeral, isWhole, hread, rfl⟩ := numberSource?_eq_some htree
  obtain ⟨c, others, htext, hc⟩ := readNumber?_head hread
  have hlater := readNumber?_append hrest hread
  rw [htext, List.cons_append, List.nil_append] at hlater
  obtain ⟨hspace, htoken⟩ := readToken?_number hc (others ++ rest)
  rw [htext]
  exact scans_token hspace (htoken.trans hlater) (by simp) h

mutual

/-- **What is written consists of the tokens of the tree**, by induction on the document: each part is
scanned up to what follows it. -/
theorem scans_write {rest : List Char} {tokens : List JsonToken} (h : Scans rest tokens)
    (hrest : StopsNumber rest) :
    ∀ (j : Json) {tree : Source}, j.source? = some tree → Scans (j.write ++ rest) (tree.tokens ++ tokens)
  | .null, tree, htree => by
    rw [source?] at htree
    obtain rfl := Option.some.inj htree
    exact scans_token (by decide) rfl (by simp; omega) h
  | .bool b, tree, htree => by
    rw [source?] at htree
    obtain rfl := Option.some.inj htree
    cases b <;> exact scans_token (by decide) rfl (by simp; omega) h
  | .number n, tree, htree => by
    rw [source?] at htree
    exact scans_writeNumber h hrest htree
  | .string s, tree, htree => by
    rw [source?] at htree
    obtain rfl := Option.some.inj htree
    exact scans_writeString h
  | .array items, tree, htree => by
    rw [source?] at htree
    obtain ⟨trees, htrees, rfl⟩ := Option.map_eq_some_iff.mp htree
    have hclose := scans_mark ']' .rightBracket (by decide) rfl h
    have hitems := scans_writeItems hclose (stopsNumber_cons (by decide)) items htrees
    have hopen := scans_mark '[' .leftBracket (by decide) rfl hitems
    simpa [Json.write, Source.tokens] using hopen
  | .object fields, tree, htree => by
    rw [source?] at htree
    obtain ⟨trees, htrees, rfl⟩ := Option.map_eq_some_iff.mp htree
    have hclose := scans_mark '\x7d' .rightBrace (by decide) rfl h
    have hfields := scans_writeFields hclose (stopsNumber_cons (by decide)) fields htrees
    have hopen := scans_mark '\x7b' .leftBrace (by decide) rfl hfields
    simpa [Json.write, Source.tokens] using hopen

theorem scans_writeItems {rest : List Char} {tokens : List JsonToken} (h : Scans rest tokens)
    (hrest : StopsNumber rest) :
    ∀ (items : List Json) {trees : List Source}, itemSources? items = some trees →
      Scans (writeItems items ++ rest) (itemTokens trees ++ tokens)
  | [], trees, htrees => by
    rw [itemSources?] at htrees
    obtain rfl := Option.some.inj htrees
    exact h
  | [item], trees, htrees => by
    obtain ⟨tree, others, htree, hothers, rfl⟩ := itemSources?_cons htrees
    obtain rfl := Option.some.inj hothers
    exact scans_write h hrest item htree
  | item :: next :: items, trees, htrees => by
    obtain ⟨tree, others, htree, hothers, rfl⟩ := itemSources?_cons htrees
    have hlater := scans_writeItems h hrest (next :: items) hothers
    obtain ⟨second, later, -, -, rfl⟩ := itemSources?_cons hothers
    have hcomma := scans_mark ',' .comma (by decide) rfl hlater
    simpa [writeItems, itemTokens] using scans_write hcomma (stopsNumber_cons (by decide)) item htree

theorem scans_writeFields {rest : List Char} {tokens : List JsonToken} (h : Scans rest tokens)
    (hrest : StopsNumber rest) :
    ∀ (fields : List (String × Json)) {trees : List (Option String × Source)},
      fieldSources? fields = some trees →
        Scans (writeFields fields ++ rest) (fieldTokens trees ++ tokens)
  | [], trees, htrees => by
    rw [fieldSources?] at htrees
    obtain rfl := Option.some.inj htrees
    exact h
  | [(name, value)], trees, htrees => by
    obtain ⟨tree, others, htree, hothers, rfl⟩ := fieldSources?_cons htrees
    obtain rfl := Option.some.inj hothers
    have hvalue := scans_write h hrest value htree
    have hcolon := scans_mark ':' .colon (by decide) rfl hvalue
    simpa [writeFields, fieldTokens] using scans_writeString (s := name) hcolon
  | (name, value) :: next :: fields, trees, htrees => by
    obtain ⟨tree, others, htree, hothers, rfl⟩ := fieldSources?_cons htrees
    have hlater := scans_writeFields h hrest (next :: fields) hothers
    obtain ⟨second, later, -, -, rfl⟩ := fieldSources?_cons hothers
    have hcomma := scans_mark ',' .comma (by decide) rfl hlater
    have hvalue := scans_write hcomma (stopsNumber_cons (by decide)) value htree
    have hcolon := scans_mark ':' .colon (by decide) rfl hvalue
    simpa [writeFields, fieldTokens] using scans_writeString (s := name) hcolon

end

/-- **A written document** consists of the tokens of its tree. -/
theorem scan?_compact {j : Json} {tree : Source} (h : j.source? = some tree) :
    scan? j.compact = some tree.tokens := by
  have hscans := scans_write scans_nil stopsNumber_nil j h
  rw [List.append_nil, List.append_nil] at hscans
  rw [scan?, Json.compact, String.toList_ofList]
  exact hscans _ (Nat.le_refl _)

end JsonToken

/-! ### From tokens to trees -/

namespace Source

/-- No tree begins with a closing bracket. -/
theorem tokens_head (tree : Source) :
    ∃ first later, tree.tokens = first :: later ∧ first ≠ .rightBracket := by
  cases tree <;> exact ⟨_, _, rfl, by simp⟩

theorem itemTokens_head (item : Source) (items : List Source) :
    ∃ first later, itemTokens (item :: items) = first :: later ∧ first ≠ .rightBracket := by
  obtain ⟨first, later, hitem, hne⟩ := item.tokens_head
  cases items with
  | nil => exact ⟨first, later, hitem, hne⟩
  | cons next items =>
    refine ⟨first, later ++ .comma :: itemTokens (next :: items), ?_, hne⟩
    rw [itemTokens, hitem, List.cons_append]
    exact List.cons_ne_nil _ _

theorem fieldTokens_head (name : Option String) (value : Source) (fields : List (Option String × Source)) :
    ∃ later, fieldTokens ((name, value) :: fields) = .string name :: later := by
  cases fields with
  | nil => exact ⟨_, rfl⟩
  | cons next fields => exact ⟨_, rfl⟩

theorem readTree?_bracket {bound : Nat} {first : JsonToken} {rest : List JsonToken}
    (h : first ≠ .rightBracket) :
    readTree? (bound + 1) (.leftBracket :: first :: rest) =
      (readItems? bound (first :: rest)).map fun (items, rest) => (.array items, rest) := by
  cases first with
  | rightBracket => exact absurd rfl h
  | _ => rfl

mutual

/-- **The tokens of a tree are read as that tree**, and what follows them is left; each token is good for two
steps of the reader. -/
theorem readTree?_tokens (rest : List JsonToken) :
    ∀ (tree : Source) (bound : Nat), 2 * tree.tokens.length ≤ bound →
      readTree? bound (tree.tokens ++ rest) = some (tree, rest)
  | tree, 0, hbound => by
    obtain ⟨first, later, htokens, -⟩ := tree.tokens_head
    rw [htokens, List.length_cons] at hbound
    omega
  | .null, bound + 1, _ => rfl
  | .bool b, bound + 1, _ => rfl
  | .number numeral isWhole, bound + 1, _ => rfl
  | .string text, bound + 1, _ => rfl
  | .array [], bound + 1, _ => rfl
  | .array (item :: items), bound + 1, hbound => by
    have hlength : (tokens (.array (item :: items))).length = (itemTokens (item :: items)).length + 2 := by
      simp [tokens]
    have hitems := readItems?_tokens rest (item :: items) (List.cons_ne_nil _ _) bound (by omega)
    obtain ⟨first, later, htokens, hne⟩ := itemTokens_head item items
    rw [htokens] at hitems
    rw [tokens, htokens]
    simp only [List.cons_append, List.append_assoc, List.nil_append] at hitems ⊢
    rw [readTree?_bracket hne, hitems, Option.map_some]
  | .object [], bound + 1, _ => rfl
  | .object ((name, value) :: fields), bound + 1, hbound => by
    have hlength : (tokens (.object ((name, value) :: fields))).length =
        (fieldTokens ((name, value) :: fields)).length + 2 := by
      simp [tokens]
    have hfields := readFields?_tokens rest ((name, value) :: fields) (List.cons_ne_nil _ _)
      bound (by omega)
    obtain ⟨later, htokens⟩ := fieldTokens_head name value fields
    rw [htokens] at hfields
    rw [tokens, htokens]
    simp only [List.cons_append, List.append_assoc, List.nil_append] at hfields ⊢
    rw [readTree?, hfields, Option.map_some]
    exact nofun

theorem readItems?_tokens (rest : List JsonToken) :
    ∀ (items : List Source), items ≠ [] → ∀ bound : Nat, 2 * (itemTokens items).length + 1 ≤ bound →
      readItems? bound (itemTokens items ++ .rightBracket :: rest) = some (items, rest)
  | [], hne, _, _ => absurd rfl hne
  | _ :: _, _, 0, hbound => absurd hbound (Nat.not_succ_le_zero _)
  | [item], _, bound + 1, hbound => by
    have hitem := readTree?_tokens (.rightBracket :: rest) item bound (by
      rw [itemTokens] at hbound
      omega)
    rw [itemTokens, readItems?]
    simp only [hitem, bind, Option.bind, pure]
  | item :: next :: items, _, bound + 1, hbound => by
    have hlength : (itemTokens (item :: next :: items)).length =
        item.tokens.length + (itemTokens (next :: items)).length + 1 := by
      simp [itemTokens]
      omega
    have hitem := readTree?_tokens (.comma :: (itemTokens (next :: items) ++ .rightBracket :: rest)) item
      bound (by omega)
    have hitems := readItems?_tokens rest (next :: items) (List.cons_ne_nil _ _) bound (by
      obtain ⟨first, later, htokens, -⟩ := item.tokens_head
      rw [hlength, htokens, List.length_cons] at hbound
      omega)
    rw [itemTokens, readItems?]
    · simp only [List.append_assoc, List.cons_append, hitem, hitems, bind, Option.bind, pure]
    · simp

theorem readFields?_tokens (rest : List JsonToken) :
    ∀ (fields : List (Option String × Source)), fields ≠ [] →
      ∀ bound : Nat, 2 * (fieldTokens fields).length + 1 ≤ bound →
        readFields? bound (fieldTokens fields ++ .rightBrace :: rest) = some (fields, rest)
  | [], hne, _, _ => absurd rfl hne
  | _ :: _, _, 0, hbound => absurd hbound (Nat.not_succ_le_zero _)
  | [(name, value)], _, bound + 1, hbound => by
    have hvalue := readTree?_tokens (.rightBrace :: rest) value bound (by
      rw [fieldTokens] at hbound
      simp only [List.length_cons] at hbound
      omega)
    rw [fieldTokens, List.cons_append, List.cons_append, readFields?]
    simp only [hvalue, bind, Option.bind, pure]
  | (name, value) :: next :: fields, _, bound + 1, hbound => by
    have hlength : (fieldTokens ((name, value) :: next :: fields)).length =
        value.tokens.length + (fieldTokens (next :: fields)).length + 3 := by
      simp [fieldTokens]
      omega
    have hvalue := readTree?_tokens (.comma :: (fieldTokens (next :: fields) ++ .rightBrace :: rest)) value
      bound (by omega)
    have hfields := readFields?_tokens rest (next :: fields) (List.cons_ne_nil _ _) bound (by omega)
    rw [fieldTokens]
    · simp only [List.cons_append, List.append_assoc]
      rw [readFields?]
      simp only [hvalue, hfields, bind, Option.bind, pure]
    · simp

end

/-- A text that consists of the tokens of a tree is read as that tree. -/
theorem read?_of_scan? {s : String} {tree : Source} (h : JsonToken.scan? s = some tree.tokens) :
    read? s = some tree := by
  have htree := readTree?_tokens [] tree (2 * tree.tokens.length + 1) (by omega)
  rw [List.append_nil] at htree
  rw [read?, h]
  simp only [htree, bind, Option.bind, pure]

/-- **What was written is read**: a document is read as the tree of what it describes. -/
theorem read?_compact {j : Json} {tree : Source} (h : j.source? = some tree) :
    read? j.compact = some tree :=
  read?_of_scan? (JsonToken.scan?_compact h)

end Source

/-! ### Decoders -/

namespace Decoder

variable {α : Type}

theorem read?_compact (decode : Decoder α) {j : Json} {tree : Source} (h : j.source? = some tree) :
    decode.read? j.compact = decode.run tree := by
  rw [read?, Source.read?_compact h]
  rfl

/-- Nothing is taken out of a list without repetitions. -/
theorem eraseDups_of_nodup {names : List String} (h : names.Nodup) : names.eraseDups = names := by
  induction names with
  | nil => rfl
  | cons name names ih =>
    obtain ⟨hname, hnames⟩ := List.nodup_cons.mp h
    have hkept : names.filter (fun other => !other == name) = names := by
      refine List.filter_eq_self.mpr fun other hother => ?_
      have hne : other ≠ name := by
        rintro rfl
        exact hname hother
      simpa using hne
    rw [List.eraseDups_cons, hkept, ih hnames]

/-- What is taken from each of the things made of the elements of a list is taken from all. -/
theorem mapM_map_eq_map {β γ δ : Type} (make : β → γ) (value : β → δ) {take : γ → Option δ}
    (htake : ∀ b, take (make b) = some (value b)) (l : List β) : (l.map make).mapM take = some (l.map value) := by
  refine mapM_eq_some_of_forall₂ ?_
  rw [List.forall₂_map_left_iff, List.forall₂_map_right_iff]
  exact List.forall₂_same.mpr fun b _ => htake b

/-- What is made of the elements of a list, and can be taken back from each, is taken back from all. -/
theorem mapM_map_eq_some {β γ : Type} (make : β → γ) {take : γ → Option β}
    (htake : ∀ b, take (make b) = some b) (l : List β) : (l.map make).mapM take = some l := by
  rw [mapM_map_eq_map make id htake, List.map_id]

/-- **A record reads an object of fields that it knows**, each once at most. -/
theorem record_of_fields {names : List String} {fields : List (String × Source)}
    (hknown : ∀ f ∈ fields, f.1 ∈ names) (hnodup : (fields.map Prod.fst).Nodup) (build : Fields → Option α)
    {depth : Nat} (hdepth : 2 ≤ depth) :
    record names build depth (.object (fields.map fun f => (some f.1, f.2))) =
      build ⟨depth - 1, false, fields⟩ := by
  have henter : Source.enter? depth = some (depth - 1) := if_pos hdepth
  have hfound : fields.filter (names.contains ·.1) = fields := by
    refine List.filter_eq_self.mpr fun f hf => ?_
    exact List.contains_iff_mem.mpr (hknown f hf)
  have hdistinct : ¬(fields.map (·.1)).eraseDups.length < fields.length := by
    have hnames' : (fields.map (·.1)).eraseDups = fields.map (·.1) := eraseDups_of_nodup hnodup
    rw [hnames', List.length_map]
    exact Nat.lt_irrefl _
  rw [record, henter]
  simp only [bind, Option.bind]
  rw [mapM_map_eq_some (fun f : String × Source => (some f.1, f.2)) fun f => rfl]
  simp only [hfound, if_neg hdistinct]

end Decoder

end Orchestration
