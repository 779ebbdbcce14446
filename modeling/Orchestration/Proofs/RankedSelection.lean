import Orchestration.Proofs.SearchResults

/-!
# Selecting by relevance

A selection takes of what is relevant enough the most relevant, and of the equally relevant those under lesser keys,
up to a limit. These few words leave no choice: whatever order things come in, there is one such list of them. What is
dropped first is dropped for a reason: a relevance that is no number is less than none and more than none, and things
could not be put in order with it among them.

* `RanksBefore` — more relevant, or equally relevant and under a lesser key.
* `IsSelection` — the list has all that a selection has to have, and `IsSelection.unique`: no other list has.
* `IsSelection.map` — a selection among other things of the same relevances and keys.
* `best_isSelection` — the best of scored records with keys of their own are a selection.
* `best_selects` — the only one, in whatever order the records come.
-/

namespace Orchestration

namespace Number

open Float.Model

/-- Numbers are equal if their places are. -/
theorem beq_iff_place {x y : Float} (hx : x.isNaN = false) (hy : y.isNaN = false) :
    x == y ↔ place x = place y := by
  have hbeq : x == y ↔ x.toModel.unpack.compare y.toModel.unpack = some .eq := by
    change (x.toModel.unpack.compare y.toModel.unpack == some .eq) = true ↔ _
    rw [beq_iff_eq]
  rw [hbeq, compare_unpacked (unpack_ne_notANumber hx) (unpack_ne_notANumber hy), Option.some.injEq,
    compare_eq_iff_eq, place, place]

end Number

namespace Memory

open Number

/-! ### Selections -/

section Selection

variable {α β : Type} {relevance : α → Float} {key : α → String} {limit : Nat} {least : Float}
  {offered other found : List α} {a b : α}

/-- The one is more relevant than the other, or as relevant and under a lesser key. -/
def RanksBefore (relevance : α → Float) (key : α → String) (a b : α) : Prop :=
  relevance b < relevance a ∨ relevance a == relevance b ∧ key a < key b

instance (relevance : α → Float) (key : α → String) (a b : α) : Decidable (RanksBefore relevance key a b) :=
  inferInstanceAs (Decidable (_ ∨ _))

/-- **The most relevant** of what is offered, as far as it is relevant enough, and no more of it than the limit. -/
structure IsSelection (relevance : α → Float) (key : α → String) (limit : Nat) (least : Float)
    (offered found : List α) : Prop where
  /-- nothing is found twice -/
  distinct : found.Nodup
  /-- what is found was offered -/
  taken : ∀ a ∈ found, a ∈ offered
  /-- it is relevant enough -/
  enough : ∀ a ∈ found, least ≤ relevance a
  /-- it comes by falling relevance, and where that is the same by key -/
  ordered : found.Pairwise (RanksBefore relevance key)
  /-- it is all that is relevant enough, or as much of it as the limit -/
  length : found.length = min limit (offered.countP fun a => least ≤ relevance a)
  /-- what is left out though it is relevant enough was left no place, and comes after all that was found -/
  leftOut : ∀ a ∈ offered, least ≤ relevance a → a ∉ found →
    found.length = limit ∧ ∀ b ∈ found, RanksBefore relevance key b a

/-- Of two numbers one ranks before the other as it stands in the order of places and keys. -/
theorem ranksBefore_iff_place (ha : (relevance a).isNaN = false) (hb : (relevance b).isNaN = false) :
    RanksBefore relevance key a b ↔
      place (relevance b) < place (relevance a) ∨ place (relevance a) = place (relevance b) ∧ key a < key b := by
  rw [RanksBefore, lt_iff_place hb ha, beq_iff_place ha hb]

/-- Nothing ranks before what ranks before it. -/
theorem RanksBefore.asymm (h : RanksBefore relevance key a b) (ha : least ≤ relevance a) (hb : least ≤ relevance b) :
    ¬RanksBefore relevance key b a := by
  have hna := (isNaN_of_le ha).2
  have hnb := (isNaN_of_le hb).2
  rw [ranksBefore_iff_place hna hnb] at h
  rw [ranksBefore_iff_place hnb hna]
  rintro (hlt | ⟨heq, hkey⟩)
  · rcases h with h | ⟨h, -⟩
    · exact lt_asymm hlt h
    · exact hlt.ne h
  · rcases h with h | ⟨-, h⟩
    · exact h.ne heq
    · exact lt_asymm hkey h

/-- Of a list in order the part that is cut off comes after all that stays, and nothing is cut off before the limit
is reached. -/
theorem leftOut_of_pairwise {R : α → α → Prop} {l : List α} (h : l.Pairwise R) {n : Nat} (ha : a ∈ l)
    (hnot : a ∉ l.take n) : (l.take n).length = n ∧ ∀ b ∈ l.take n, R b a := by
  have hdrop : a ∈ l.drop n := by
    rw [← List.take_append_drop n l] at ha
    exact (List.mem_append.mp ha).resolve_left hnot
  have hlong : n < l.length := by
    have hpos := List.length_pos_of_mem hdrop
    rw [List.length_drop] at hpos
    omega
  rw [← List.take_append_drop n l] at h
  refine ⟨List.length_take_of_le hlong.le, fun b hb => ?_⟩
  exact (List.pairwise_append.mp h).2.2 b hb a hdrop

/-- Of nothing nothing is selected. -/
theorem isSelection_nil : IsSelection relevance key limit least [] [] where
  distinct := List.nodup_nil
  taken := nofun
  enough := nofun
  ordered := List.Pairwise.nil
  length := by rw [List.countP_nil, Nat.min_zero, List.length_nil]
  leftOut := nofun

namespace IsSelection

/-- Two selections find the same: what one of them leaves out comes after all that it finds, and were it found by the
other, that would leave out something in its turn. -/
theorem subset (h : IsSelection relevance key limit least offered found)
    (hother : IsSelection relevance key limit least offered other) : found ⊆ other := by
  intro a ha
  by_contra hnot
  obtain ⟨-, hafter⟩ := hother.leftOut a (h.taken a ha) (h.enough a ha) hnot
  have hmore : ¬other ⊆ found := by
    intro hsubset
    have hlonger : (a :: other).length ≤ found.length :=
      (List.nodup_cons.mpr ⟨hnot, hother.distinct⟩).length_le_of_subset (List.cons_subset.mpr ⟨ha, hsubset⟩)
    rw [h.length, ← hother.length, List.length_cons] at hlonger
    omega
  obtain ⟨b, hb, hmissing⟩ : ∃ b ∈ other, b ∉ found := by
    by_contra hall
    push Not at hall
    exact hmore hall
  obtain ⟨-, hbefore⟩ := h.leftOut b (hother.taken b hb) (hother.enough b hb) hmissing
  exact (hafter b hb).asymm (hother.enough b hb) (h.enough a ha) (hbefore a ha)

/-- **There is but one selection.** -/
theorem unique (h : IsSelection relevance key limit least offered found)
    (hother : IsSelection relevance key limit least offered other) : found = other := by
  refine List.Perm.eq_of_pairwise (fun a b ha hb hab hba => ?_) h.ordered hother.ordered ?_
  · exact absurd hba (hab.asymm (h.enough a ha) (hother.enough b hb))
  · refine (List.perm_ext_iff_of_nodup h.distinct hother.distinct).mpr fun a => ?_
    exact ⟨fun ha => h.subset hother ha, fun ha => hother.subset h ha⟩

/-- It makes no difference in what order things are offered. -/
theorem perm (h : IsSelection relevance key limit least offered found) (hperm : other.Perm offered) :
    IsSelection relevance key limit least other found where
  distinct := h.distinct
  taken a ha := hperm.mem_iff.mpr (h.taken a ha)
  enough := h.enough
  ordered := h.ordered
  length := by rw [hperm.countP_eq, h.length]
  leftOut a ha := h.leftOut a (hperm.mem_iff.mp ha)

/-- **Other things of the same relevances and keys** are selected as these are. -/
theorem map (h : IsSelection relevance key limit least offered found) {f : α → β} {relevance' : β → Float}
    {key' : β → String} (hrelevance : ∀ a ∈ offered, relevance' (f a) = relevance a)
    (hkey : ∀ a ∈ offered, key' (f a) = key a) :
    IsSelection relevance' key' limit least (offered.map f) (found.map f) := by
  have hbefore : ∀ a ∈ offered, ∀ b ∈ offered, RanksBefore relevance key a b →
      RanksBefore relevance' key' (f a) (f b) := by
    intro a ha b hb hab
    rwa [RanksBefore, hrelevance a ha, hrelevance b hb, hkey a ha, hkey b hb]
  have hordered : (found.map f).Pairwise (RanksBefore relevance' key') :=
    List.pairwise_map.mpr <| h.ordered.imp_of_mem fun {a b} ha hb hab =>
      hbefore a (h.taken a ha) b (h.taken b hb) hab
  have henough : ∀ c ∈ found.map f, least ≤ relevance' c := by
    intro c hc
    obtain ⟨a, ha, rfl⟩ := List.mem_map.mp hc
    rw [hrelevance a (h.taken a ha)]
    exact h.enough a ha
  refine ⟨?_, fun c hc => ?_, henough, hordered, ?_, fun c hc hlarge hnot => ?_⟩
  · -- what ranks before something is not the same
    refine hordered.imp_of_mem fun {c d} hc hd hcd heq => ?_
    subst heq
    exact hcd.asymm (henough c hc) (henough c hc) hcd
  · obtain ⟨a, ha, rfl⟩ := List.mem_map.mp hc
    exact List.mem_map_of_mem (h.taken a ha)
  · rw [List.length_map, h.length, List.countP_map]
    congr 1
    refine List.countP_congr fun a ha => ?_
    rw [Function.comp_apply, hrelevance a ha]
  · obtain ⟨a, ha, rfl⟩ := List.mem_map.mp hc
    rw [hrelevance a ha] at hlarge
    obtain ⟨hfull, hafter⟩ := h.leftOut a ha hlarge fun hfound => hnot (List.mem_map_of_mem hfound)
    refine ⟨by rw [List.length_map, hfull], fun d hd => ?_⟩
    obtain ⟨b, hb, rfl⟩ := List.mem_map.mp hd
    exact hbefore b (h.taken b hb) a ha (hafter b hb)

end IsSelection

end Selection

/-! ### The best of scored records -/

section Best

variable {scored : List Scored}

/-- Records in the order of their standing, with keys of their own, rank one before the other. -/
theorem ranksBefore_of_ranked {ranked : List Scored} (hranked : Ranked ranked) (hnumbers : Numbered ranked)
    (hkeys : (ranked.map (·.record.effectiveKey)).Nodup) :
    ranked.Pairwise (RanksBefore Scored.relevance (·.record.effectiveKey)) := by
  have hdistinct : ranked.Pairwise fun a b => a.record.effectiveKey ≠ b.record.effectiveKey :=
    List.pairwise_map.mp hkeys
  refine List.Pairwise.imp_of_mem (fun {a b} ha hb hab => ?_) (hranked.and hdistinct)
  obtain ⟨hle, hne⟩ := hab
  rw [ranksBefore_iff_place (hnumbers a ha) (hnumbers b hb)]
  rcases Prod.Lex.toLex_le_toLex.mp hle with hlt | ⟨heq, hkey⟩
  · exact .inl (OrderDual.toDual_lt_toDual.mp hlt)
  · exact .inr ⟨OrderDual.toDual_inj.mp heq, lt_of_le_of_ne hkey hne⟩

/-- **The best of scored records** with keys of their own are a selection. -/
theorem best_isSelection (hkeys : (scored.map (·.record.effectiveKey)).Nodup) (limit : Nat) (least : Float) :
    IsSelection Scored.relevance (·.record.effectiveKey) limit least scored (best limit least scored) := by
  let kept := scored.filter fun s => least ≤ s.relevance
  let ranked := kept.mergeSort Scored.precedes
  have hperm : ranked.Perm kept := List.mergeSort_perm kept Scored.precedes
  have hmem (s : Scored) : s ∈ ranked ↔ s ∈ scored ∧ least ≤ s.relevance := by
    rw [hperm.mem_iff, List.mem_filter, decide_eq_true_iff]
  -- what has no number for a relevance is gone before anything is sorted
  have hnumbers : Numbered kept := fun s hs => (isNaN_of_le ((hmem s).mp (hperm.mem_iff.mpr hs)).2).2
  have hunique : (ranked.map (·.record.effectiveKey)).Nodup := by
    rw [(hperm.map _).nodup_iff]
    exact hkeys.sublist (List.filter_sublist.map _)
  have hordered := ranksBefore_of_ranked (ranked_mergeSort hnumbers) (hnumbers.perm hperm) hunique
  have hfound : (ranked.take limit).Sublist ranked := List.take_sublist limit ranked
  exact {
    distinct := (List.Nodup.of_map _ hunique).sublist hfound
    taken := fun s hs => ((hmem s).mp (hfound.subset hs)).1
    enough := fun s hs => ((hmem s).mp (hfound.subset hs)).2
    ordered := hordered.sublist hfound
    length := by rw [best, List.length_take, hperm.length_eq, List.countP_eq_length_filter]
    leftOut := fun s hs hlarge hnot => leftOut_of_pairwise hordered ((hmem s).mpr ⟨hs, hlarge⟩) hnot }

/-- **The best are the selection**: of records with keys of their own, whatever numbers or none their relevances and
the threshold are, `best` finds the selection, which is the only one and the same in whatever order the records come. -/
theorem best_selects (scored : List Scored) (hkeys : (scored.map (·.record.effectiveKey)).Nodup) (limit : Nat)
    (least : Float) :
    (∀ found, IsSelection Scored.relevance (·.record.effectiveKey) limit least scored found ↔
      found = best limit least scored) ∧
    ∀ other, other.Perm scored → best limit least other = best limit least scored := by
  have hselection := best_isSelection hkeys limit least
  refine ⟨fun found => ⟨fun h => h.unique hselection, fun h => h ▸ hselection⟩, fun other hperm => ?_⟩
  have hother := best_isSelection ((hperm.map _).nodup_iff.mpr hkeys) limit least
  exact hother.unique (hselection.perm hperm)

/-- A record that has nothing but its id. -/
def namedRecord (id : String) (relevance : Float) : Scored := ⟨{ metadata := { id } }, relevance⟩

/-- Records of which two are equally relevant, one is as relevant as can be, one is not relevant enough, and one has no
number for a relevance. -/
def unevenRecords : List Scored :=
  [namedRecord "b" 0.5, namedRecord "n" (0 / 0), namedRecord "a" 0.5, namedRecord "c" (1 / 0), namedRecord "d" 0.25]

/-- Of the two that are equally relevant there is a place for the one under the lesser key. -/
theorem isSelection_uneven :
    IsSelection Scored.relevance (·.record.effectiveKey) 2 0.5 unevenRecords
      [namedRecord "c" (1 / 0), namedRecord "a" 0.5] where
  distinct := List.Nodup.of_map (·.record.effectiveKey) (by decide)
  taken := by simp [unevenRecords]
  enough := by decide
  ordered := by decide
  length := by decide
  leftOut s hs hlarge hnot := by
    refine ⟨rfl, ?_⟩
    simp only [unevenRecords, List.mem_cons, List.not_mem_nil, or_false] at hs
    rcases hs with rfl | rfl | rfl | rfl | rfl
    · decide
    · exact absurd hlarge (by decide)
    · exact absurd (List.mem_cons_of_mem _ List.mem_cons_self) hnot
    · exact absurd List.mem_cons_self hnot
    · exact absurd hlarge (by decide)

theorem best_selects_uneven :
    (unevenRecords.map (·.record.effectiveKey)).Nodup ∧
      best 2 0.5 unevenRecords = [namedRecord "c" (1 / 0), namedRecord "a" 0.5] ∧
        best 2 0.5 unevenRecords.reverse = best 2 0.5 unevenRecords := by
  have hkeys : (unevenRecords.map (·.record.effectiveKey)).Nodup := by decide
  obtain ⟨hselection, hperm⟩ := best_selects unevenRecords hkeys 2 0.5
  exact ⟨hkeys, ((hselection _).mp isSelection_uneven).symm, hperm _ (List.reverse_perm _)⟩

end Best

end Memory

end Orchestration
