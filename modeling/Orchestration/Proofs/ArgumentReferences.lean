import Orchestration.Plan.Run
import Orchestration.Proofs.Scanning

/-!
# References in arguments

An argument is read from the left: a reference is a dollar sign and the longest name behind it. It gives way to the text
of its variable if that is set; every other character stands for itself, and what was put in is not read. So two texts
in a row become what each of them becomes, unless a reference at the end of the one goes on in the other.

* `Reference.Reads` — a text as characters and references, and `Reference.reads_iff`, which says that there is one way to
  read it.
* `Reference.GoesOn` — a reference goes on from one text into the next.
* `Reference.Reads.append` — texts that are read one after the other.
* `expand_reads` — how a text is read, and what that means for states and for texts in a row.
-/

namespace Orchestration

open Text

namespace Reference

variable {v w : Variables} {name cs more rest : List Char} {c : Char} {reading other : List (Piece (List Char))}

/-! ### A reference -/

/-- **A name**: a letter or `_`, and letters, digits and `_` behind it. -/
inductive IsName : List Char → Prop where
  | cons {c : Char} {cs : List Char} (first : startsReference c) (others : ∀ d ∈ cs, isNameChar d) : IsName (c :: cs)

/-- No character of a name comes next, so that a name does not go on here. -/
def Ended (rest : List Char) : Prop := ∀ c ∈ rest.head?, isNameChar c = false

theorem isNameChar_of_startsReference (h : startsReference c) : isNameChar c := by
  simp only [startsReference, isNameChar, Char.isAlphanum, Bool.or_eq_true] at h ⊢
  exact h.imp_left .inl

theorem IsName.isNameChar (h : IsName name) : ∀ c ∈ name, isNameChar c := by
  cases h with
  | cons first others => exact List.forall_mem_cons.mpr ⟨isNameChar_of_startsReference first, others⟩

/-- The dollar sign is not part of a name. -/
theorem isNameChar_dollar : isNameChar '$' = false := by decide

/-- What a name starts with is a name. -/
theorem IsName.of_append (h : IsName (name ++ rest)) (hne : name ≠ []) : IsName name := by
  obtain ⟨c, cs, rfl⟩ := List.exists_cons_of_ne_nil hne
  cases h with
  | cons first others => exact .cons first fun d hd => others d (List.mem_append_left rest hd)

/-- A name is longer with more of its characters behind it. -/
theorem IsName.append (h : IsName name) (hmore : ∀ c ∈ more, Text.isNameChar c) : IsName (name ++ more) := by
  cases h with
  | cons first others => exact .cons first (List.forall_mem_append.mpr ⟨others, hmore⟩)

theorem ended_dropWhile (cs : List Char) : Ended (cs.dropWhile isNameChar) := by
  intro c hc
  have hnot := List.head?_dropWhile_not isNameChar cs
  rw [Option.mem_def.mp hc] at hnot
  simpa using hnot

/-- **What is recognised** is a reference, with its name as long as it can be. -/
theorem variableReference?_eq_some_iff :
    variableReference? cs = some (name, rest) ↔ IsName name ∧ Ended rest ∧ cs = '$' :: (name ++ rest) := by
  constructor
  · intro h
    rw [variableReference?.eq_def] at h
    split at h
    · next c cs =>
      split at h
      · next hfirst =>
        obtain ⟨rfl, rfl⟩ := Prod.mk.inj (Option.some.inj h)
        refine ⟨.cons hfirst fun d hd => List.mem_takeWhile_imp hd, ended_dropWhile cs, ?_⟩
        rw [List.cons_append, List.takeWhile_append_dropWhile]
      · cases h
    · cases h
  · rintro ⟨hname, hrest, rfl⟩
    cases hname with
    | cons first others =>
      rw [List.cons_append, variableReference?, if_pos first, takeWhile_append_ended others hrest,
        dropWhile_append_ended others hrest]

/-- Where nothing is recognised no reference stands. -/
theorem variableReference?_eq_none_iff :
    variableReference? cs = none ↔ ∀ name, IsName name → ¬ '$' :: name <+: cs := by
  constructor
  · rintro h name hname ⟨rest, rfl⟩
    cases hname with
    | cons first others =>
      rw [List.cons_append, List.cons_append, variableReference?, if_pos first] at h
      cases h
  · intro h
    cases hfound : variableReference? cs with
    | none => rfl
    | some found =>
      obtain ⟨hname, -, rfl⟩ := variableReference?_eq_some_iff.mp hfound
      exact absurd (List.prefix_append ('$' :: found.1) found.2) (h found.1 hname)

/-! ### A text -/

/-- **How a text is read**: from the left, as characters and references. -/
inductive Reads : List Char → List (Piece (List Char)) → Prop where
  /-- nothing is left -/
  | nil : Reads [] []
  /-- a character at which no reference stands -/
  | plain {c : Char} {cs : List Char} {reading : List (Piece (List Char))}
      (unspelled : ∀ name, IsName name → ¬ '$' :: name <+: c :: cs) (reads : Reads cs reading) :
      Reads (c :: cs) (.plain c :: reading)
  /-- a reference, up to where its name ends -/
  | reference {name rest : List Char} {reading : List (Piece (List Char))} (spelled : IsName name)
      (ended : Ended rest) (reads : Reads rest reading) : Reads ('$' :: name ++ rest) (.found name :: reading)

theorem reads_pieces (cs : List Char) : Reads cs (pieces variableReference? cs) := by
  refine pieces_induction (fun cs name rest h => ?_) .nil (fun c cs h ih => ?_) (fun part rest name h ih => ?_) cs
  · obtain ⟨-, -, rfl⟩ := variableReference?_eq_some_iff.mp h
    exact ⟨'$' :: name, List.cons_ne_nil _ _, rfl⟩
  · exact .plain (variableReference?_eq_none_iff.mp h) ih
  · obtain ⟨hname, hrest, hpart⟩ := variableReference?_eq_some_iff.mp h
    obtain rfl : part = '$' :: name := List.append_cancel_right hpart
    exact .reference hname hrest ih

/-- **There is one way to read a text.** -/
theorem reads_iff : Reads cs reading ↔ reading = pieces variableReference? cs := by
  constructor
  · intro h
    induction h with
    | nil => rfl
    | plain unspelled _ ih => rw [pieces_cons_none (variableReference?_eq_none_iff.mpr unspelled), ih]
    | reference spelled ended _ ih =>
      rw [pieces_append_found (List.cons_ne_nil _ _) (variableReference?_eq_some_iff.mpr ⟨spelled, ended, rfl⟩), ih]
  · rintro rfl
    exact reads_pieces cs

/-! ### Texts in a row -/

/-- **A reference goes on** from one text into the next: the one ends in a dollar sign, with a name behind it or none,
and with the first character of the other there is a name, or a longer one. -/
def GoesOn (cs more : List Char) : Prop :=
  ∃ name c, '$' :: name <:+ cs ∧ more.head? = some c ∧ IsName (name ++ [c])

theorem GoesOn.of_suffix (h : GoesOn rest more) (hsuffix : rest <:+ cs) : GoesOn cs more := by
  obtain ⟨name, c, hend, hc, hname⟩ := h
  exact ⟨name, c, hend.trans hsuffix, hc, hname⟩

/-- A reference that starts in the one text and is not over there goes on. -/
theorem goesOn_of_start (hname : IsName name) (h : '$' :: name <+: cs ++ more) (hnot : ¬ '$' :: name <+: cs)
    (hne : cs ≠ []) : GoesOn cs more := by
  obtain ⟨tail, htail⟩ := h
  rcases List.append_eq_append_iff.mp htail with ⟨between, hsplit, -⟩ | ⟨beyond, hsplit, rfl⟩
  · exact absurd ⟨between, hsplit.symm⟩ hnot
  · -- the reference ends behind the first text, and so with a character of the second
    obtain ⟨d, start, rfl⟩ := List.exists_cons_of_ne_nil hne
    rw [List.cons_append] at hsplit
    obtain ⟨rfl, rfl⟩ := List.cons.inj hsplit
    cases beyond with
    | nil => exact absurd (by rw [List.append_nil]) hnot
    | cons c beyond =>
      rw [List.append_cons] at hname
      exact ⟨start, c, List.suffix_rfl, rfl, hname.of_append (List.concat_ne_nil c start)⟩

/-- **Texts are read one after the other** if no reference goes on from the one into the next. -/
theorem Reads.append (h : Reads cs reading) (hmore : Reads more other) (hapart : ¬GoesOn cs more) :
    Reads (cs ++ more) (reading ++ other) := by
  induction h with
  | nil => exact hmore
  | @plain c cs reading unspelled _ ih =>
    refine .plain (fun name hname hstart => ?_) (ih fun h => hapart (h.of_suffix (List.suffix_cons c cs)))
    exact hapart (goesOn_of_start hname hstart (unspelled name hname) (List.cons_ne_nil c cs))
  | @reference name rest reading spelled ended _ ih =>
    rw [List.append_assoc]
    refine .reference spelled ?_ (ih fun h => hapart (h.of_suffix (List.suffix_append _ rest)))
    cases rest with
    | cons d rest => exact ended
    | nil =>
      -- the name ends with the first text, and the second does not make it longer
      intro c hc
      refine Bool.eq_false_iff.mpr fun hlonger => hapart ⟨name, c, by simp, hc, ?_⟩
      exact spelled.append (List.forall_mem_singleton.mpr hlonger)

/-- A reference that goes on has its name from both texts, as far as the characters of names reach. -/
theorem GoesOn.exists_name (h : GoesOn cs more) : ∃ before name tail rest, cs = before ++ '$' :: name ∧
    more = tail ++ rest ∧ tail ≠ [] ∧ IsName (name ++ tail) ∧ Ended rest := by
  obtain ⟨name, c, ⟨before, hcs⟩, hc, hname⟩ := h
  obtain ⟨following, rfl⟩ := List.head?_eq_some_iff.mp hc
  have hlonger : IsName (name ++ [c] ++ following.takeWhile isNameChar) :=
    hname.append fun d hd => List.mem_takeWhile_imp hd
  rw [← List.append_cons] at hlonger
  refine ⟨before, name, c :: following.takeWhile isNameChar, following.dropWhile isNameChar, hcs.symm, ?_,
    List.cons_ne_nil _ _, hlonger, ended_dropWhile following⟩
  rw [List.cons_append, List.takeWhile_append_dropWhile]

/-- No reference goes on in a dollar sign. -/
theorem not_goesOn_dollar : ¬GoesOn cs ('$' :: more) := by
  rintro ⟨name, c, -, hc, hname⟩
  obtain rfl := Option.some.inj hc
  have hallowed := hname.isNameChar '$' (List.mem_append_right name List.mem_cons_self)
  rw [isNameChar_dollar] at hallowed
  cases hallowed

/-! ### What references become -/

/-- What a piece of an argument gives way to. -/
def shown (v : Variables) : Piece (List Char) → List Char
  | .plain c => [c]
  | .found name => match v.get? (.ofList name) with
    | some value => value.toList
    | none => '$' :: name

theorem toList_expand (text : String) (v : Variables) :
    (expand text v).toList = (pieces variableReference? text.toList).flatMap (shown v) := by
  rw [expand, String.toList_ofList, replaceFound]
  congr 1
  funext piece
  cases piece <;> rfl

theorem toList_expand_of_reads {text : String} (h : Reads text.toList reading) (v : Variables) :
    (expand text v).toList = reading.flatMap (shown v) := by
  rw [toList_expand, reads_iff.mp h]

/-- **States that agree on the references of a text** make the same of it. -/
theorem expand_congr {text : String} (hreads : Reads text.toList reading)
    (h : ∀ name, .found name ∈ reading → v.get? (.ofList name) = w.get? (.ofList name)) :
    expand text v = expand text w := by
  refine String.toList_injective ?_
  rw [toList_expand_of_reads hreads, toList_expand_of_reads hreads]
  refine List.flatMap_congr fun piece hpiece => ?_
  cases piece with
  | plain c => rfl
  | found name => simp only [shown, h name hpiece]

/-- Texts in a row become what each of them becomes. -/
theorem expand_append {text next : String} (h : ¬GoesOn text.toList next.toList) (v : Variables) :
    expand (text ++ next) v = expand text v ++ expand next v := by
  have hreads : Reads (text ++ next).toList
      (pieces variableReference? text.toList ++ pieces variableReference? next.toList) := by
    rw [String.toList_append]
    exact (reads_pieces text.toList).append (reads_pieces next.toList) h
  refine String.toList_injective ?_
  rw [toList_expand_of_reads hreads, List.flatMap_append, ← toList_expand, ← toList_expand, String.toList_append]

/-- A reference becomes what is shown for it, and what is behind it becomes what it becomes by itself. -/
theorem expand_reference (hname : IsName name) (hrest : Ended rest) (v : Variables) :
    expand (.ofList ('$' :: name ++ rest)) v = .ofList (shown v (.found name)) ++ expand (.ofList rest) v := by
  have hreads : Reads (String.ofList ('$' :: name ++ rest)).toList
      (.found name :: pieces variableReference? (String.ofList rest).toList) := by
    rw [String.toList_ofList, String.toList_ofList]
    exact .reference hname hrest (reads_pieces rest)
  refine String.toList_injective ?_
  rw [toList_expand_of_reads hreads, List.flatMap_cons, ← toList_expand, String.toList_append, String.toList_ofList]

/-- **What becomes of a reference that goes on**: it is one reference to the whole name. -/
structure Joined (text next : String) (before name tail rest : List Char) : Prop where
  /-- the one text ends in the first part of the reference -/
  ends : text.toList = before ++ '$' :: name
  /-- the other starts with what is left of the name -/
  starts : next.toList = tail ++ rest
  /-- something is left of it -/
  left : tail ≠ []
  /-- the name is made of both -/
  spelled : IsName (name ++ tail)
  /-- and it does not go on -/
  ended : Ended rest
  /-- what the texts become in a row -/
  expands : ∀ v, expand (text ++ next) v =
    expand (.ofList before) v ++ .ofList (shown v (.found (name ++ tail))) ++ expand (.ofList rest) v

theorem GoesOn.joined {text next : String} (h : GoesOn text.toList next.toList) :
    ∃ before name tail rest, Joined text next before name tail rest := by
  obtain ⟨before, name, tail, rest, hends, hstarts, hleft, hname, hrest⟩ := h.exists_name
  refine ⟨before, name, tail, rest, hends, hstarts, hleft, hname, hrest, fun v => ?_⟩
  have hwhole : text ++ next = .ofList before ++ .ofList ('$' :: (name ++ tail) ++ rest) := by
    refine String.toList_injective ?_
    rw [String.toList_append, String.toList_append, String.toList_ofList, String.toList_ofList, hends, hstarts]
    simp
  have hapart : ¬GoesOn (String.ofList before).toList (String.ofList ('$' :: (name ++ tail) ++ rest)).toList := by
    rw [String.toList_ofList, String.toList_ofList]
    exact not_goesOn_dollar
  rw [hwhole, expand_append hapart, expand_reference hname hrest, String.append_assoc]

end Reference

open Reference

/-- **How an argument is read.** There is one way to read a text as characters and references, each with the longest
name behind its dollar sign. A reference gives way to the text of its variable as it stands; one whose variable is not
set stays, and so does every other character. So states that agree on the names of the references make the same of the
text. Texts in a row become what each of them becomes, unless a reference at the end of the one goes on in the other;
then it is one reference to the whole name. -/
theorem expand_reads (text : String) :
    (∃ reading, (∀ other, Reads text.toList other ↔ other = reading) ∧
      (∀ v, (expand text v).toList = reading.flatMap (shown v)) ∧
      ∀ v w : Variables, (∀ name, .found name ∈ reading → v.get? (.ofList name) = w.get? (.ofList name)) →
        expand text v = expand text w) ∧
    ∀ next : String,
      (¬GoesOn text.toList next.toList → ∀ v, expand (text ++ next) v = expand text v ++ expand next v) ∧
      (GoesOn text.toList next.toList → ∃ before name tail rest, Joined text next before name tail rest) := by
  have hreads := reads_pieces text.toList
  exact ⟨⟨pieces variableReference? text.toList, fun other => reads_iff, toList_expand text,
    fun v w => expand_congr hreads⟩, fun next => ⟨expand_append, GoesOn.joined⟩⟩

/-- Variables of which one has a text that looks like a reference. -/
def travels : Variables := .ofList [("city", "Rome"), ("name", "$city")]

/-- A text that looks like a reference is put in as it is, and a reference to nothing stays; a reference may go on in the
next text or not. -/
theorem expand_reads_travels :
    expand "$Name, $town" travels = "$city, $town" ∧
      expand "$Name, $town" travels = expand "$Name, $town" (travels.set "other" "x") ∧
      ¬GoesOn "$Name, ".toList "$town".toList ∧
      expand ("$Name, " ++ "$town") travels = expand "$Name, " travels ++ expand "$town" travels ∧
      GoesOn "in $ci".toList "ty!".toList ∧
      ∃ before name tail rest, Joined "in $ci" "ty!" before name tail rest := by
  obtain ⟨⟨reading, hunique, -, hcongr⟩, -⟩ := expand_reads "$Name, $town"
  obtain rfl : pieces variableReference? "$Name, $town".toList = reading := (hunique _).mp (reads_pieces _)
  have hagree : ((pieces variableReference? "$Name, $town".toList).all fun
      | .plain _ => true
      | .found name => travels.get? (.ofList name) == (travels.set "other" "x").get? (.ofList name)) = true := by
    decide +kernel
  have happart : ¬GoesOn "$Name, ".toList "$town".toList := not_goesOn_dollar
  have hgoesOn : GoesOn "in $ci".toList "ty!".toList :=
    ⟨"ci".toList, 't', ⟨"in ".toList, by decide⟩, by decide, .cons (by decide) (List.all_eq_true.mp (by decide))⟩
  obtain ⟨-, hnext⟩ := expand_reads "$Name, "
  obtain ⟨-, hlast⟩ := expand_reads "in $ci"
  exact ⟨by decide +kernel, hcongr _ _ fun name hname => eq_of_beq (List.all_eq_true.mp hagree _ hname), happart,
    (hnext "$town").1 happart travels, hgoesOn, (hlast "ty!").2 hgoesOn⟩

end Orchestration
