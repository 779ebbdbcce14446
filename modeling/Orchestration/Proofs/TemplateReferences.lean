import Mathlib.Data.List.Nodup
import Orchestration.Kernel.Function
import Orchestration.Proofs.Scanning
import Orchestration.Proofs.SmallLetters

/-!
# References in templates

A template is read from the left: a reference gives way to the text of its variable, every other character stands for
itself, and what was put in is not read. So nothing but the variables that a template refers to has a part in what it
becomes, and these are the parameters of the function that is made of it.

* `Template.Spells` — how a reference is written.
* `Template.Reads` — a text as characters and references, and `Template.reads_iff`, which says that there is one way to
  read it.
* `Template.FirstUses` — the members of a list by where they occur first.
* `Template.render_congr` — variables that agree on the names of a template make the same of it.
* `Template.render_reads` — how a template is read, and what that means for functions made of it.
-/

namespace Orchestration

open Text

namespace Template

variable {t : Template} {v w : Variables} {part rest cs : List Char} {c : Char} {name : String}
  {reading : List (Piece String)} {used names : List String}

/-! ### A reference -/

/-- **How a reference is written**: the name behind a dollar sign in double braces, with blanks beside it or none. -/
structure Spells (part : List Char) (name : String) : Prop where
  /-- there is a name -/
  named : name ≠ ""
  /-- its characters are those of names -/
  allowed : ∀ c ∈ name.toList, isReferenceChar c
  /-- what stands around it -/
  framed : ∃ before after, (∀ c ∈ before, isBlank c) ∧ (∀ c ∈ after, isBlank c) ∧
    part = '\x7b' :: '\x7b' :: (before ++ '$' :: (name.toList ++ (after ++ ['\x7d', '\x7d'])))

theorem Spells.ne_nil (h : Spells part name) : part ≠ [] := by
  obtain ⟨before, after, -, -, rfl⟩ := h.framed
  exact List.cons_ne_nil _ _

/-- A character of a name is one of those that are printed in ASCII. -/
theorem toNat_of_isReferenceChar (h : isReferenceChar c) : 33 ≤ c.toNat ∧ c.toNat ≤ 126 := by
  simp only [isReferenceChar, isNameChar, Bool.or_eq_true, decide_eq_true_eq] at h
  rcases h with (hletter | rfl) | rfl
  · change (decide ('A'.val ≤ c.val ∧ c.val ≤ 'Z'.val) || decide ('a'.val ≤ c.val) && decide (c.val ≤ 'z'.val) ||
      decide ('0'.val ≤ c.val) && decide (c.val ≤ '9'.val)) = true at hletter
    simp only [Bool.or_eq_true, Bool.and_eq_true, decide_eq_true_eq, UInt32.le_iff_toNat_le] at hletter
    have hbounds : ((65 ≤ c.toNat ∧ c.toNat ≤ 90) ∨ (97 ≤ c.toNat ∧ c.toNat ≤ 122)) ∨ (48 ≤ c.toNat ∧ c.toNat ≤ 57) :=
      hletter
    omega
  · decide
  · decide

/-- No blank is. -/
theorem isReferenceChar_of_isBlank (h : isBlank c) : isReferenceChar c = false := by
  cases hc : isReferenceChar c with
  | false => rfl
  | true =>
    have hbounds := toNat_of_isReferenceChar hc
    simp [isBlank, inRanges, blankRanges] at h
    omega

/-- A reference is recognised as a whole. -/
theorem Spells.reference?_append (h : Spells part name) (rest : List Char) :
    reference? (part ++ rest) = some (name, rest) := by
  obtain ⟨hne, hname, before, after, hbefore, hafter, rfl⟩ := h
  have hshape : '\x7b' :: '\x7b' :: (before ++ '$' :: (name.toList ++ (after ++ ['\x7d', '\x7d']))) ++ rest =
      '\x7b' :: '\x7b' :: (before ++ '$' :: (name.toList ++ (after ++ '\x7d' :: '\x7d' :: rest))) := by simp
  have hdollar (cs : List Char) : dropBlanks (before ++ '$' :: cs) = '$' :: cs := dropBlanks_append hbefore (by decide)
  have hclose : dropBlanks (after ++ '\x7d' :: '\x7d' :: rest) = '\x7d' :: '\x7d' :: rest :=
    dropBlanks_append hafter (by decide)
  -- behind the name stands a blank or a brace
  obtain ⟨c, tail, hstop, hc⟩ : ∃ c tail,
      after ++ '\x7d' :: '\x7d' :: rest = c :: tail ∧ isReferenceChar c = false := by
    cases after with
    | nil => exact ⟨'\x7d', '\x7d' :: rest, rfl, by decide⟩
    | cons d after => exact ⟨d, _, rfl, isReferenceChar_of_isBlank (hafter d List.mem_cons_self)⟩
  have htake : (name.toList ++ (after ++ '\x7d' :: '\x7d' :: rest)).takeWhile isReferenceChar = name.toList := by
    rw [hstop]
    exact takeWhile_append_stop hname hc
  have hdrop : (name.toList ++ (after ++ '\x7d' :: '\x7d' :: rest)).dropWhile isReferenceChar =
      after ++ '\x7d' :: '\x7d' :: rest := by
    rw [hstop]
    exact dropWhile_append_stop hname hc
  have hsome : name.toList.isEmpty = false := by simpa using hne
  rw [hshape, reference?]
  simp only [hdollar, htake, hdrop, hclose, hsome, Bool.false_eq_true, if_false, String.ofList_toList]

/-- What is passed on the way through double braces is a reference. -/
theorem exists_spells {tail : List Char} (htail : dropBlanks cs = '$' :: tail)
    (hrest : dropBlanks (tail.dropWhile isReferenceChar) = '\x7d' :: '\x7d' :: rest)
    (hname : tail.takeWhile isReferenceChar ≠ []) :
    ∃ part, Spells part (.ofList (tail.takeWhile isReferenceChar)) ∧ '\x7b' :: '\x7b' :: cs = part ++ rest := by
  obtain ⟨before, hbefore, hcs⟩ := exists_blanks cs
  obtain ⟨after, hafter, hbehind⟩ := exists_blanks (tail.dropWhile isReferenceChar)
  have hsplit : tail.takeWhile isReferenceChar ++ tail.dropWhile isReferenceChar = tail :=
    List.takeWhile_append_dropWhile
  rw [hbehind, hrest] at hsplit
  refine ⟨_, ⟨?_, ?_, before, after, hbefore, hafter, rfl⟩, ?_⟩
  · simpa using hname
  · rw [String.toList_ofList]
    exact fun c hc => List.mem_takeWhile_imp hc
  · rw [hcs, htail, String.toList_ofList]
    conv_lhs => rw [← hsplit]
    simp

/-- **What is recognised** is a reference, with what stands behind it. -/
theorem reference?_eq_some_iff : reference? cs = some (name, rest) ↔ ∃ part, Spells part name ∧ cs = part ++ rest := by
  constructor
  · intro h
    rw [reference?.eq_def] at h
    split at h
    · next cs =>
      split at h
      · next tail htail =>
        dsimp only at h
        split at h
        · next behind hbehind =>
          split at h
          · cases h
          · next hname =>
            obtain ⟨rfl, rfl⟩ := Prod.mk.inj (Option.some.inj h)
            exact exists_spells htail hbehind (by simpa using hname)
        · cases h
      · cases h
    · cases h
  · rintro ⟨part, hspells, rfl⟩
    exact hspells.reference?_append rest

/-- Where nothing is recognised no reference stands. -/
theorem reference?_eq_none_iff : reference? cs = none ↔ ∀ part name, Spells part name → ¬part <+: cs := by
  constructor
  · rintro h part name hspells ⟨rest, rfl⟩
    rw [hspells.reference?_append rest] at h
    cases h
  · intro h
    cases hfound : reference? cs with
    | none => rfl
    | some found =>
      obtain ⟨part, hspells, hparts⟩ := reference?_eq_some_iff.mp hfound
      exact absurd ⟨found.2, hparts.symm⟩ (h part found.1 hspells)

/-! ### A text -/

/-- **How a text is read**: from the left, as characters and references. -/
inductive Reads : List Char → List (Piece String) → Prop where
  /-- nothing is left -/
  | nil : Reads [] []
  /-- a character at which no reference stands -/
  | plain {c : Char} {cs : List Char} {reading : List (Piece String)}
      (unspelled : ∀ part name, Spells part name → ¬part <+: c :: cs) (reads : Reads cs reading) :
      Reads (c :: cs) (.plain c :: reading)
  /-- a reference -/
  | reference {part rest : List Char} {name : String} {reading : List (Piece String)} (spelled : Spells part name)
      (reads : Reads rest reading) : Reads (part ++ rest) (.found name :: reading)

theorem reads_pieces (cs : List Char) : Reads cs (pieces reference? cs) := by
  refine pieces_induction (fun cs name rest h => ?_) .nil (fun c cs h ih => ?_) (fun part rest name h ih => ?_) cs
  · obtain ⟨part, hspells, rfl⟩ := reference?_eq_some_iff.mp h
    exact ⟨part, hspells.ne_nil, rfl⟩
  · exact .plain (reference?_eq_none_iff.mp h) ih
  · obtain ⟨spelled, hspells, hpart⟩ := reference?_eq_some_iff.mp h
    obtain rfl : part = spelled := List.append_cancel_right hpart
    exact .reference hspells ih

/-- **There is one way to read a text.** -/
theorem reads_iff : Reads cs reading ↔ reading = pieces reference? cs := by
  constructor
  · intro h
    induction h with
    | nil => rfl
    | plain unspelled _ ih => rw [pieces_cons_none (reference?_eq_none_iff.mpr unspelled), ih]
    | reference spelled _ ih => rw [pieces_append_found spelled.ne_nil (spelled.reference?_append _), ih]
  · rintro rfl
    exact reads_pieces cs

/-! ### What references become -/

/-- What a piece of a template gives way to. -/
def shown (v : Variables) : Piece String → List Char
  | .plain c => [c]
  | .found name => ((v.get? name).getD "").toList

theorem toList_render (t : Template) (v : Variables) :
    (t.render v).toList = (pieces reference? t.text.toList).flatMap (shown v) := by
  rw [render, String.toList_ofList, replaceFound]
  congr 1
  funext piece
  cases piece <;> rfl

/-! ### Names -/

/-- The small forms of the names in a text, in order, as often as they are used. -/
def usedNames (reading : List (Piece String)) : List String :=
  reading.filterMap fun
    | .plain _ => none
    | .found name => some (lower name)

theorem mem_usedNames_iff {small : String} :
    small ∈ usedNames reading ↔ ∃ name, .found name ∈ reading ∧ lower name = small := by
  rw [usedNames, List.mem_filterMap]
  constructor
  · rintro ⟨piece, hpiece, hname⟩
    cases piece with
    | plain c => cases hname
    | found name => exact ⟨name, hpiece, Option.some.inj hname⟩
  · rintro ⟨name, hname, rfl⟩
    exact ⟨.found name, hname, rfl⟩

theorem variableNames_eq (t : Template) : t.variableNames = distinct (usedNames (pieces reference? t.text.toList)) := by
  rw [variableNames, findAll, List.map_filterMap, usedNames]
  congr 2
  funext piece
  cases piece <;> rfl

/-- **The members of a list**, each once, in the order in which they occur first. -/
structure FirstUses (used names : List String) : Prop where
  /-- each once -/
  nodup : names.Nodup
  /-- all of them, and no others -/
  mem_iff : ∀ name, name ∈ names ↔ name ∈ used
  /-- by where they occur first -/
  ordered : names.Pairwise fun a b => used.idxOf a < used.idxOf b

/-- A member at the end is new, or it has been there before. -/
theorem distinct_concat (used : List String) (name : String) :
    distinct (used ++ [name]) = if (distinct used).contains name then distinct used else distinct used ++ [name] := by
  rw [distinct, List.foldl_append]
  rfl

theorem firstUses_distinct (used : List String) : FirstUses used (distinct used) := by
  induction used using List.reverseRecOn with
  | nil => exact ⟨List.nodup_nil, fun _ => Iff.rfl, List.Pairwise.nil⟩
  | append_singleton used last ih =>
    -- a name that has been there before stays where it occurred first
    have hordered : (distinct used).Pairwise fun a b => (used ++ [last]).idxOf a < (used ++ [last]).idxOf b := by
      refine ih.ordered.imp_of_mem fun {a b} ha hb hab => ?_
      rwa [List.idxOf_append_of_mem ((ih.mem_iff a).mp ha), List.idxOf_append_of_mem ((ih.mem_iff b).mp hb)]
    rw [distinct_concat]
    split
    · next hold =>
      have hlast : last ∈ used := (ih.mem_iff last).mp (List.contains_iff_mem.mp hold)
      refine ⟨ih.nodup, fun name => ?_, hordered⟩
      rw [ih.mem_iff, List.mem_append, List.mem_singleton]
      exact ⟨.inl, fun h => h.elim id fun hname => hname ▸ hlast⟩
    · next hnew =>
      have hlast : last ∉ distinct used := fun h => hnew (List.contains_iff_mem.mpr h)
      refine ⟨List.concat_eq_append ▸ List.Nodup.concat hlast ih.nodup, fun name => ?_, ?_⟩
      · rw [List.mem_append, List.mem_append, ih.mem_iff]
      · refine List.pairwise_append.mpr ⟨hordered, List.pairwise_singleton .., fun a ha b hb => ?_⟩
        obtain rfl := List.mem_singleton.mp hb
        have hused : a ∈ used := (ih.mem_iff a).mp ha
        rw [List.idxOf_append_of_mem hused, List.idxOf_append_of_notMem (mt (ih.mem_iff b).mpr hlast)]
        exact (List.idxOf_lt_length_of_mem hused).trans_le (Nat.le_add_right ..)

/-! ### Variables that matter -/

/-- **Variables that agree on the names of a template** make the same of it. -/
theorem render_congr (h : ∀ name ∈ t.variableNames, v.get? name = w.get? name) : t.render v = t.render w := by
  refine String.toList_injective ?_
  rw [toList_render, toList_render]
  refine List.flatMap_congr fun piece hpiece => ?_
  cases piece with
  | plain c => rfl
  | found name =>
    have hname : lower name ∈ t.variableNames := by
      rw [variableNames_eq, (firstUses_distinct _).mem_iff]
      exact mem_usedNames_iff.mpr ⟨name, hpiece, rfl⟩
    have hsmall := h _ hname
    simp only [Variables.get?, lower_lower] at hsmall
    simp only [shown, Variables.get?, hsmall]

/-- A text without a reference anywhere is read as its characters. -/
theorem pieces_of_unspelled (h : ∀ part name, Spells part name → ¬part <:+: cs) :
    pieces reference? cs = cs.map .plain := by
  refine pieces_none fun before after hcs => reference?_eq_none_iff.mpr fun part name hspells hstart => ?_
  exact h part name hspells (hstart.isInfix.trans (hcs ▸ (List.suffix_append before after).isInfix))

/-- **A template has no names** just if no reference stands anywhere in it. -/
theorem variableNames_eq_nil_iff :
    t.variableNames = [] ↔ ∀ part name, Spells part name → ¬part <:+: t.text.toList := by
  constructor
  · intro hnone part name hspells hinside
    have hfound : findAll reference? t.text.toList = [] := by
      refine List.eq_nil_iff_forall_not_mem.mpr fun name hname => ?_
      have hlisted : lower name ∈ t.variableNames :=
        ((firstUses_distinct _).mem_iff _).mpr (List.mem_map_of_mem hname)
      rw [hnone] at hlisted
      exact List.not_mem_nil hlisted
    obtain ⟨behind, hstart, hsuffix⟩ := List.infix_iff_prefix_suffix.mp hinside
    have hne : behind ≠ [] := fun hnil => hspells.ne_nil (List.prefix_nil.mp (hnil ▸ hstart))
    have hunread := recognise_eq_none_of_findAll (by rw [hfound]; rfl) behind hsuffix hne
    exact reference?_eq_none_iff.mp hunread part name hspells hstart
  · intro h
    have hused : usedNames (t.text.toList.map .plain) = [] := by simp [usedNames, List.filterMap_map]
    rw [variableNames_eq, pieces_of_unspelled h, hused]
    rfl

/-- Such a template stands for itself. -/
theorem render_of_variableNames_eq_nil (h : t.variableNames = []) (v : Variables) : t.render v = t.text := by
  refine String.toList_injective ?_
  rw [toList_render, pieces_of_unspelled (variableNames_eq_nil_iff.mp h), List.flatMap_map]
  exact List.flatMap_singleton' _

end Template

/-! ### Functions made of a template -/

/-- Parameters without defaults leave variables as they are. -/
theorem fillDefaults_of_none {parameters : List Parameter} (h : ∀ p ∈ parameters, p.default = none) (v : Variables) :
    fillDefaults parameters v = v := by
  induction parameters with
  | nil => rfl
  | cons p parameters ih =>
    obtain ⟨hp, hrest⟩ := List.forall_mem_cons.mp h
    have hfirst : fillDefault v p = v := by rw [fillDefault, hp]
    rw [fillDefaults, List.foldl_cons, hfirst]
    exact ih hrest

namespace Function

variable {plugin name description : String} {t : Template} {settings : CompletionSettings} {completion : Completion}

/-- A function made of a template has the model continue what the template becomes. -/
theorem invoke_ofPrompt (v : Variables) : ((ofPrompt name description t settings completion).inPlugin plugin).invoke v =
    (completion.complete (t.render v) settings).mapError fun e : AiError => (e : Failure) := by
  have hdefaults : ∀ p ∈ ((ofPrompt name description t settings completion).inPlugin plugin).view.parameters,
      p.default = none := by
    intro p hp
    obtain ⟨n, -, rfl⟩ := List.mem_map.mp hp
    rfl
  rw [invoke, fillDefaults_of_none hdefaults]
  rfl

end Function

namespace Template

/-- **How a template is read.** There is one way to read it as characters and references, the leftmost first. Each
reference gives way to the text of its variable as it stands, or to nothing, and all else stays; the names are those of
the references, in order of first use. So variables that agree on the names make the same of it, and without references
it stands for itself. A function made of it shows the names as its parameters, and with variables that agree on these it
sends one prompt. -/
theorem render_reads (t : Template) :
    (∃ reading, (∀ other, Reads t.text.toList other ↔ other = reading) ∧
      (∀ v, (t.render v).toList = reading.flatMap (shown v)) ∧ FirstUses (usedNames reading) t.variableNames) ∧
    (∀ v w : Variables, (∀ name ∈ t.variableNames, v.get? name = w.get? name) → t.render v = t.render w) ∧
    ((t.variableNames = [] ↔ ∀ part name, Spells part name → ¬part <:+: t.text.toList) ∧
      (t.variableNames = [] → ∀ v, t.render v = t.text)) ∧
    ∀ plugin name description settings completion,
      let f := (Function.ofPrompt name description t settings completion).inPlugin plugin
      f.view.parameters.map (·.name) = t.variableNames ∧
        ∀ v w : Variables, (∀ p ∈ f.view.parameters, v.get? p.name = w.get? p.name) →
          f.invoke w = (completion.complete (t.render v) settings).mapError fun e : AiError => (e : Failure) := by
  refine ⟨⟨pieces reference? t.text.toList, fun other => reads_iff, toList_render t, ?_⟩, fun v w => render_congr,
    ⟨variableNames_eq_nil_iff, render_of_variableNames_eq_nil⟩, ?_⟩
  · rw [variableNames_eq]
    exact firstUses_distinct _
  intro plugin name description settings completion f
  have hparameters : f.view.parameters = t.variableNames.map fun n => { name := n, description := "" } := rfl
  constructor
  · rw [hparameters, List.map_map]
    exact List.map_id _
  intro v w hagree
  have hrender : t.render v = t.render w := render_congr fun n hn =>
    hagree { name := n, description := "" } (hparameters ▸ List.mem_map_of_mem hn)
  rw [Function.invoke_ofPrompt, hrender]

/-- A template with three references, two of them to one variable. -/
def threeReferences : Template := ⟨"Say \x7b\x7b$A\x7d\x7d and \x7b\x7b $b \x7d\x7d, \x7b\x7b$a\x7d\x7d!"⟩

/-- Variables of which one has a text that looks like a reference. -/
def unreadVariables : Variables := .ofList [("a", "\x7b\x7b$b\x7d\x7d"), ("b", "B")]

/-- A text that looks like a reference is put in as it is, and a variable without a reference changes nothing. -/
theorem render_reads_unread :
    threeReferences.variableNames = ["a", "b"] ∧
      threeReferences.render unreadVariables = "Say \x7b\x7b$b\x7d\x7d and B, \x7b\x7b$b\x7d\x7d!" ∧
      (∀ name ∈ threeReferences.variableNames, unreadVariables.get? name = (unreadVariables.set "c" "C").get? name) ∧
      threeReferences.render unreadVariables = threeReferences.render (unreadVariables.set "c" "C") := by
  have hagree : ∀ name ∈ threeReferences.variableNames,
      unreadVariables.get? name = (unreadVariables.set "c" "C").get? name := by decide +kernel
  obtain ⟨-, hcongr, -⟩ := render_reads threeReferences
  exact ⟨by decide +kernel, by decide +kernel, hagree, hcongr _ _ hagree⟩

end Template

end Orchestration
