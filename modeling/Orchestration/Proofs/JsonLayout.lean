import Orchestration.Proofs.JsonTrees

/-!
# Documents on many lines

Between two tokens any blanks may stand, so a document that is laid out on many lines is read as one that
stands on a single line. What is read of it is what was written, as soon as a decoder undoes a writer.

* `JsonToken.scans_writePretty` — the tokens of a document on many lines are those of its tree.
* `Decoder.Undoes` — a decoder takes back what a writer made of a value.
* `Decoder.Undoes.list`, `Decoder.undoes_texts`, `Decoder.undoes_record` — rows, maps and records of what
  can be taken back can be taken back.
* `Decoder.Undoes.read?_pretty` — a value that was written is read as it was.
-/

namespace Orchestration

/-! ### Blanks -/

namespace JsonToken

open Json Number Source

variable {cs : List Char} {tokens : List JsonToken}

/-- A blank in front of a token is passed over. -/
theorem scans_blank {c : Char} (hspace : isSpace c = true) (h : Scans cs tokens) : Scans (c :: cs) tokens := by
  intro bound hbound
  cases bound with
  | zero => exact absurd hbound (Nat.not_succ_le_zero _)
  | succ bound =>
    have hrest := h (bound + 1) (Nat.le_of_succ_le hbound)
    rw [scanWithin?] at hrest ⊢
    rw [List.dropWhile_cons_of_pos hspace]
    exact hrest

/-- So is a new line, however deep it is indented. -/
theorem scans_newline (level : Nat) (h : Scans cs tokens) : Scans (newline level ++ cs) tokens := by
  have hindent : ∀ n, Scans (List.replicate n ' ' ++ cs) tokens := by
    intro n
    induction n with
    | zero => exact h
    | succ n ih => exact scans_blank (by decide) ih
  exact scans_blank (by decide) (hindent _)

mutual

/-- **What is laid out on lines consists of the tokens of the tree**, by induction on the document: the lines
between its parts add no token. -/
theorem scans_writePretty {rest : List Char} {tokens : List JsonToken} (h : Scans rest tokens)
    (hrest : StopsNumber rest) :
    ∀ (level : Nat) (j : Json) {tree : Source}, j.source? = some tree →
      Scans (j.writePretty level ++ rest) (tree.tokens ++ tokens)
  | level, .null, tree, htree => scans_write h hrest .null htree
  | level, .bool b, tree, htree => scans_write h hrest (.bool b) htree
  | level, .number n, tree, htree => scans_write h hrest (.number n) htree
  | level, .string s, tree, htree => scans_write h hrest (.string s) htree
  | level, .array [], tree, htree => scans_write h hrest (.array []) htree
  | level, .array (item :: items), tree, htree => by
    rw [source?] at htree
    obtain ⟨trees, htrees, rfl⟩ := Option.map_eq_some_iff.mp htree
    have hclose := scans_newline level (scans_mark ']' .rightBracket (by decide) rfl h)
    have hitems := scans_prettyItems hclose (stopsNumber_cons (by decide)) (level + 1) (item :: items) htrees
    have hopen := scans_mark '[' .leftBracket (by decide) rfl hitems
    simpa [Json.writePretty, Source.tokens] using hopen
  | level, .object [], tree, htree => scans_write h hrest (.object []) htree
  | level, .object (field :: fields), tree, htree => by
    rw [source?] at htree
    obtain ⟨trees, htrees, rfl⟩ := Option.map_eq_some_iff.mp htree
    have hclose := scans_newline level (scans_mark '\x7d' .rightBrace (by decide) rfl h)
    have hfields := scans_prettyFields hclose (stopsNumber_cons (by decide)) (level + 1) (field :: fields) htrees
    have hopen := scans_mark '\x7b' .leftBrace (by decide) rfl hfields
    simpa [Json.writePretty, Source.tokens] using hopen

theorem scans_prettyItems {rest : List Char} {tokens : List JsonToken} (h : Scans rest tokens)
    (hrest : StopsNumber rest) :
    ∀ (level : Nat) (items : List Json) {trees : List Source}, itemSources? items = some trees →
      Scans (prettyItems level items ++ rest) (itemTokens trees ++ tokens)
  | level, [], trees, htrees => by
    rw [itemSources?] at htrees
    obtain rfl := Option.some.inj htrees
    exact h
  | level, [item], trees, htrees => by
    obtain ⟨tree, others, htree, hothers, rfl⟩ := itemSources?_cons htrees
    obtain rfl := Option.some.inj hothers
    have hline := scans_newline level (scans_writePretty h hrest level item htree)
    simpa [prettyItems, itemTokens] using hline
  | level, item :: next :: items, trees, htrees => by
    obtain ⟨tree, others, htree, hothers, rfl⟩ := itemSources?_cons htrees
    have hlater := scans_prettyItems h hrest level (next :: items) hothers
    obtain ⟨second, later, -, -, rfl⟩ := itemSources?_cons hothers
    have hcomma := scans_mark ',' .comma (by decide) rfl hlater
    have hline := scans_newline level (scans_writePretty hcomma (stopsNumber_cons (by decide)) level item htree)
    simpa [prettyItems, itemTokens] using hline

theorem scans_prettyFields {rest : List Char} {tokens : List JsonToken} (h : Scans rest tokens)
    (hrest : StopsNumber rest) :
    ∀ (level : Nat) (fields : List (String × Json)) {trees : List (Option String × Source)},
      fieldSources? fields = some trees →
        Scans (prettyFields level fields ++ rest) (fieldTokens trees ++ tokens)
  | level, [], trees, htrees => by
    rw [fieldSources?] at htrees
    obtain rfl := Option.some.inj htrees
    exact h
  | level, [(name, value)], trees, htrees => by
    obtain ⟨tree, others, htree, hothers, rfl⟩ := fieldSources?_cons htrees
    obtain rfl := Option.some.inj hothers
    have hvalue := scans_blank (c := ' ') (by decide) (scans_writePretty h hrest level value htree)
    have hcolon := scans_mark ':' .colon (by decide) rfl hvalue
    have hline := scans_newline level (scans_writeString (s := name) hcolon)
    simpa [prettyFields, fieldTokens] using hline
  | level, (name, value) :: next :: fields, trees, htrees => by
    obtain ⟨tree, others, htree, hothers, rfl⟩ := fieldSources?_cons htrees
    have hlater := scans_prettyFields h hrest level (next :: fields) hothers
    obtain ⟨second, later, -, -, rfl⟩ := fieldSources?_cons hothers
    have hcomma := scans_mark ',' .comma (by decide) rfl hlater
    have hvalue := scans_blank (c := ' ') (by decide)
      (scans_writePretty hcomma (stopsNumber_cons (by decide)) level value htree)
    have hcolon := scans_mark ':' .colon (by decide) rfl hvalue
    have hline := scans_newline level (scans_writeString (s := name) hcolon)
    simpa [prettyFields, fieldTokens] using hline

end

/-- **A document on many lines** consists of the tokens of its tree. -/
theorem scan?_pretty {j : Json} {tree : Source} (h : j.source? = some tree) :
    scan? j.pretty = some tree.tokens := by
  have hscans := scans_writePretty scans_nil stopsNumber_nil 0 j h
  rw [List.append_nil, List.append_nil] at hscans
  rw [scan?, Json.pretty, String.toList_ofList]
  exact hscans _ (Nat.le_refl _)

end JsonToken

/-! ### Decoders that undo writers -/

namespace Decoder

open Json

variable {α : Type} {decode : Decoder α} {write : α → Json} {levels : Nat}

/-- The decoder takes a value back from what the writer made of it, with brackets in so many levels. -/
def Undoes (decode : Decoder α) (write : α → Json) (levels : Nat) : Prop :=
  ∀ a, ∃ tree, (write a).source? = some tree ∧ ∀ depth, levels < depth → decode depth tree = some a

@[simp] theorem string_some (depth : Nat) (s : String) : string depth (.string (some s)) = some s := rfl

theorem undoes_string : Undoes string .string 0 := by
  intro s
  exact ⟨.string (some s), rfl, fun _ _ => rfl⟩

/-- **Values in a row** are taken back one by one. -/
theorem Undoes.list (h : Undoes decode write levels) :
    Undoes (.list decode) (fun values => .array (values.map write)) (levels + 1) := by
  intro values
  have hitems : ∃ trees, itemSources? (values.map write) = some trees ∧
      ∀ depth, levels < depth → trees.mapM (decode depth) = some values := by
    induction values with
    | nil => exact ⟨[], rfl, fun _ _ => rfl⟩
    | cons value values ih =>
      obtain ⟨tree, htree, hdecode⟩ := h value
      obtain ⟨trees, htrees, hrest⟩ := ih
      refine ⟨tree :: trees, ?_, fun depth hdepth => ?_⟩
      · simp [itemSources?, htree, htrees]
      · simp [List.mapM_cons, hdecode depth hdepth, hrest depth hdepth]
  obtain ⟨trees, htrees, hdecode⟩ := hitems
  refine ⟨.array trees, by simp [source?, htrees], fun depth hdepth => ?_⟩
  have henter : Source.enter? depth = some (depth - 1) := if_pos (by omega)
  simp [Decoder.list, henter, hdecode (depth - 1) (by omega)]

theorem undoes_strings : Undoes (.list .string) ofStrings 1 := undoes_string.list

theorem fieldSources?_texts (entries : List (String × String)) :
    fieldSources? (entries.map fun e => (e.1, .string e.2)) =
      some (entries.map fun e => (some e.1, .string (some e.2))) := by
  induction entries with
  | nil => rfl
  | cons e entries ih => simp [fieldSources?, source?, ih]

/-- **A map reads an object** value by value. -/
theorem map_of_entries {β : Type} (tree : β → Source) (value : β → α) {depth : Nat} (hdepth : 2 ≤ depth)
    (h : ∀ b, decode (depth - 1) (tree b) = some (value b)) (entries : List (String × β)) :
    map decode depth (.object (entries.map fun e => (some e.1, tree e.2))) =
      some (.ofList (entries.map fun e => (e.1, value e.2))) := by
  have henter : Source.enter? depth = some (depth - 1) := if_pos hdepth
  rw [Decoder.map, henter]
  simp only [bind, Option.bind]
  rw [mapM_map_eq_map (fun e : String × β => (some e.1, tree e.2)) fun e => (e.1, value e.2)]
  · rfl
  · intro e
    simp [h]

/-- **Texts under names** are taken back under their names, in whatever order they are put in. -/
theorem undoes_texts : Undoes texts ofTexts 1 := by
  intro d
  refine ⟨.object (d.entries.map fun e => (some e.1, .string (some e.2))), ?_, fun depth hdepth => ?_⟩
  · simp [ofTexts, source?, fieldSources?_texts]
  · have hlist : Dictionary.ofList d.entries = d := Dictionary.ofList_of_perm (List.Perm.refl _)
    rw [texts, map_of_entries (fun s => .string (some s)) (fun s => s) hdepth (fun _ => rfl), List.map_id', hlist]

/-- **A record** is taken back from an object of fields that it knows. -/
theorem undoes_record {names : List String} {build : Fields → Option α}
    (h : ∀ a, ∃ fields : List (String × Source),
      (write a).source? = some (.object (fields.map fun f => (some f.1, f.2))) ∧
        (∀ f ∈ fields, f.1 ∈ names) ∧ (fields.map Prod.fst).Nodup ∧
          ∀ depth, levels < depth → build ⟨depth, false, fields⟩ = some a) :
    Undoes (record names build) write (levels + 1) := by
  intro a
  obtain ⟨fields, hsource, hknown, hnodup, hbuild⟩ := h a
  refine ⟨_, hsource, fun depth hdepth => ?_⟩
  rw [record_of_fields hknown hnodup build (by omega)]
  exact hbuild _ (by omega)

/-- **What was laid out on lines** is read as it was. -/
theorem Undoes.read?_pretty (h : Undoes decode write levels) (hlevels : levels < Source.depthLimit) (a : α) :
    decode.read? (write a).pretty = some a := by
  obtain ⟨tree, htree, hdecode⟩ := h a
  rw [read?, Source.read?_of_scan? (JsonToken.scan?_pretty htree)]
  exact hdecode _ hlevels

end Decoder

end Orchestration
