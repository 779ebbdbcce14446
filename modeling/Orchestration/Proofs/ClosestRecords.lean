import Mathlib.Data.List.Nodup
import Mathlib.Data.String.Basic
import Mathlib.Order.Lex
import Orchestration.Memory.Table
import Orchestration.Proofs.NumberOrder

/-!
# The closest records

A search ranks scored records by falling relevance and then by key. The volatile store drops what is below the
threshold, ranks the rest and cuts it off at the limit; the database ranks all rows, cuts them off, and drops
what is below the threshold last. A threshold keeps a first part of a ranking, so both come to the same.

* `Scored.precedes_iff_standing` — the ranking is a linear order, as far as relevances are numbers.
* `mergeSort_eq_of_ranked` — records with keys of their own have a single ranking, whatever order they come in.
* `filter_take_of_ranked` — of a ranking it does not matter whether it is cut off or thinned out first.
* `best_eq_closestRows` — the two selections are the same.
-/

namespace Orchestration.Memory

open Number

/-! ### Ranking -/

/-- Where a scored record stands in a ranking. -/
def Scored.standing (s : Scored) : (ℤ ×ₗ ℤ ×ₗ ℤ)ᵒᵈ ×ₗ String :=
  toLex (.toDual (place s.relevance), s.record.effectiveKey)

/-- A list of scored records in the order of their standing. -/
def Ranked (scored : List Scored) : Prop := scored.Pairwise fun a b => a.standing ≤ b.standing

/-- Every relevance is a number. -/
def Numbered (scored : List Scored) : Prop := ∀ s ∈ scored, s.relevance.isNaN = false

section Ranking

variable {scored ranked : List Scored}

theorem Scored.precedes_iff_standing {a b : Scored} (ha : a.relevance.isNaN = false)
    (hb : b.relevance.isNaN = false) : a.precedes b = true ↔ a.standing ≤ b.standing := by
  simp only [standing, Prod.Lex.toLex_le_toLex, OrderDual.toDual_lt_toDual, OrderDual.toDual_inj,
    precedes, lt_iff_place hb ha, lt_iff_place ha hb]
  rcases lt_trichotomy (place b.relevance) (place a.relevance) with h | h | h
  · simp [h]
  · simp [h]
  · simp [h, h.not_gt, h.ne]

theorem Numbered.perm (h : Numbered scored) (hperm : ranked.Perm scored) : Numbered ranked :=
  fun s hs => h s (hperm.mem_iff.mp hs)

/-- Sorting ranks. -/
theorem ranked_mergeSort (h : Numbered scored) : Ranked (scored.mergeSort Scored.precedes) := by
  have hsame : scored.mergeSort Scored.precedes =
      scored.mergeSort fun a b => decide (a.standing ≤ b.standing) := by
    have hmap := List.map_mergeSort (f := id) (r := Scored.precedes)
      (s := fun a b => decide (a.standing ≤ b.standing)) fun a ha b hb =>
        Bool.eq_iff_iff.mpr <| (Scored.precedes_iff_standing (h a ha) (h b hb)).trans
          (decide_eq_true_iff (p := a.standing ≤ b.standing)).symm
    rwa [List.map_id, List.map_id] at hmap
  have hsorted := @List.pairwise_mergeSort _ (fun a b : Scored => decide (a.standing ≤ b.standing))
    (fun a b c hab hbc =>
      decide_eq_true (le_trans (of_decide_eq_true hab) (of_decide_eq_true hbc)))
    (fun a b => by simpa using le_total a.standing b.standing) scored
  rw [hsame, Ranked]
  exact hsorted.imp of_decide_eq_true

/-- **Records with keys of their own have a single ranking**, which sorting finds in whatever order they come. -/
theorem mergeSort_eq_of_ranked (hkeys : (scored.map (·.record.effectiveKey)).Nodup)
    (hnumbers : Numbered scored) (hranked : Ranked ranked) (hperm : ranked.Perm scored) :
    scored.mergeSort Scored.precedes = ranked := by
  refine List.Perm.eq_of_pairwise ?_ (ranked_mergeSort hnumbers) hranked
    ((List.mergeSort_perm scored _).trans hperm.symm)
  intro a b ha hb hab hba
  refine List.inj_on_of_nodup_map hkeys (List.mem_mergeSort.mp ha) (hperm.mem_iff.mp hb) ?_
  exact congrArg (fun standing => (ofLex standing).2) (le_antisymm hab hba)

/-- What comes before a record that is relevant enough is so too; so **of a ranking it does not matter whether
it is cut off or thinned out first**. -/
theorem filter_take_of_ranked (hranked : Ranked ranked) (hnumbers : Numbered ranked) (limit : Nat)
    {least : Float} (hleast : least.isNaN = false) :
    (ranked.take limit).filter (fun s => decide (least ≤ s.relevance)) =
      (ranked.filter fun s => decide (least ≤ s.relevance)).take limit := by
  induction ranked generalizing limit with
  | nil => rw [List.take_nil, List.filter_nil, List.take_nil]
  | cons first rest ih =>
    obtain ⟨hfirst, hrest⟩ := List.pairwise_cons.mp hranked
    have hnumber := hnumbers first List.mem_cons_self
    have hothers : Numbered rest := fun s hs => hnumbers s (List.mem_cons_of_mem _ hs)
    cases limit with
    | zero => rw [List.take_zero, List.take_zero, List.filter_nil]
    | succ limit =>
      by_cases henough : least ≤ first.relevance
      · rw [List.take_succ_cons, List.filter_cons_of_pos (by simpa using henough),
          List.filter_cons_of_pos (by simpa using henough), List.take_succ_cons, ih hrest hothers]
      · -- the first is not relevant enough, and so no other one is
        have hnone : ∀ s ∈ first :: rest, ¬ decide (least ≤ s.relevance) = true := by
          intro s hs hlarge
          have hstanding : first.standing ≤ s.standing := by
            rcases List.mem_cons.mp hs with rfl | hs
            · exact le_refl _
            · exact hfirst s hs
          have hplace : place s.relevance ≤ place first.relevance :=
            (Prod.Lex.monotone_fst_ofLex hstanding : _)
          have hlarge := (le_iff_place hleast (hnumbers s hs)).mp (of_decide_eq_true hlarge)
          exact henough ((le_iff_place hleast hnumber).mpr (hlarge.trans hplace))
        rw [List.filter_eq_nil_iff.mpr hnone, List.take_nil, List.filter_eq_nil_iff]
        exact fun s hs => hnone s (List.mem_of_mem_take hs)

end Ranking

/-! ### The two selections -/

section Selections

variable {rows : List (MemoryRow × Float)} {scored : List Scored} {read : MemoryRow → Record}

/-- A scored row as the record that is read from it. -/
def scoredOf (read : MemoryRow → Record) (row : MemoryRow × Float) : Scored := ⟨read row.1, row.2⟩

/-- Rows are ranked as the records that are read from them. -/
theorem map_mergeSort_rows (hread : ∀ row ∈ rows, (read row.1).effectiveKey = row.1.key) :
    (rows.mergeSort rowPrecedes).map (scoredOf read) =
      (rows.map (scoredOf read)).mergeSort Scored.precedes := by
  refine List.map_mergeSort fun a ha b hb => ?_
  rw [rowPrecedes, Scored.precedes, scoredOf, scoredOf, hread a ha, hread b hb]

/-- A limit beyond 63 bits takes all rows; it is the same to take as many as it says, if there are no more. -/
theorem limitRows_eq_take {α : Type} {rows : List α} {limit : Nat}
    (hsize : limit < twoTo 63 ∨ rows.length ≤ limit) : limitRows limit rows = rows.take limit := by
  rw [limitRows]
  split
  · rfl
  · next hlimit => rw [List.take_of_length_le (hsize.resolve_left hlimit)]

/-- Rows that are not below a number are those that reach it. -/
theorem filter_rows {least : Float} (hleast : least.isNaN = false)
    (hnumbers : ∀ row ∈ rows, row.2.isNaN = false) :
    (rows.filter fun row => !(row.2 < least)).map (scoredOf read) =
      (rows.map (scoredOf read)).filter fun s => decide (least ≤ s.relevance) := by
  rw [List.filter_map]
  congr 1
  refine List.filter_congr fun row hrow => ?_
  rw [← decide_not, Function.comp_apply, scoredOf]
  exact decide_eq_decide.mpr (by
    rw [lt_iff_place (hnumbers row hrow) hleast, le_iff_place hleast (hnumbers row hrow), not_lt])

/-- **The two selections are the same**: whatever rows there are, as long as they have keys of their own and
relevances that are numbers, and in whatever order each store comes by them, to rank all, cut off and drop what
is below the threshold leaves the same records in the same order as to drop, rank and cut off. The limit may be
any; if it is beyond 63 bits, it is also beyond the number of rows that any store can hold. -/
theorem best_eq_closestRows (hkeys : (rows.map (·.1.key)).Nodup)
    (hnumbers : ∀ row ∈ rows, row.2.isNaN = false)
    (hread : ∀ row ∈ rows, (read row.1).effectiveKey = row.1.key)
    (hscored : scored.Perm (rows.map (scoredOf read))) {limit : Nat}
    (hsize : limit < twoTo 63 ∨ rows.length ≤ limit) {least : Float} (hleast : least.isNaN = false) :
    best limit least scored = (closestRows limit least rows).map (scoredOf read) := by
  let enough : Scored → Bool := fun s => decide (least ≤ s.relevance)
  let ranking := (rows.map (scoredOf read)).mergeSort Scored.precedes
  have hnumbered : Numbered (rows.map (scoredOf read)) := by
    intro s hs
    obtain ⟨row, hrow, rfl⟩ := List.mem_map.mp hs
    exact hnumbers row hrow
  have hranked : Ranked ranking := ranked_mergeSort hnumbered
  have hperm : ranking.Perm scored := (List.mergeSort_perm _ _).trans hscored.symm
  have hunique : (scored.map (·.record.effectiveKey)).Nodup := by
    have hsame : (rows.map (scoredOf read)).map (·.record.effectiveKey) = rows.map (·.1.key) := by
      rw [List.map_map]
      exact List.map_congr_left hread
    rwa [(hscored.map _).nodup_iff, hsame]
  -- dropping first, ranking and cutting off
  have hbest : best limit least scored = (ranking.filter enough).take limit := by
    rw [best, mergeSort_eq_of_ranked]
    · exact hunique.sublist (List.filter_sublist.map _)
    · exact fun s hs => hnumbered.perm hscored s (List.mem_of_mem_filter hs)
    · exact List.Pairwise.filter _ hranked
    · exact hperm.filter _
  -- ranking first, cutting off and dropping
  have hclosest : (closestRows limit least rows).map (scoredOf read) = (ranking.take limit).filter enough := by
    have hsorted := List.mergeSort_perm rows rowPrecedes
    rw [closestRows, limitRows_eq_take (by rwa [hsorted.length_eq]), filter_rows hleast, List.map_take,
      map_mergeSort_rows hread]
    exact fun row hrow => hnumbers row (hsorted.mem_iff.mp (List.mem_of_mem_take hrow))
  rw [hbest, hclosest, filter_take_of_ranked hranked (hnumbered.perm (List.mergeSort_perm _ _)) limit hleast]

/-- Rows of which two are equally close and one is as far away as can be. -/
def tiedRows : List (MemoryRow × Float) :=
  let row (key : String) : MemoryRow := ⟨"notes", key, "", [], 0, none⟩
  [(row "b", 0.5), (row "a", 0.5), (row "c", -1 / 0), (row "d", 0.75)]

theorem best_eq_closestRows_tied :
    let read (row : MemoryRow) : Record := { metadata := { id := row.key }, key := row.key }
    (tiedRows.map (·.1.key)).Nodup ∧ (∀ row ∈ tiedRows, row.2.isNaN = false) ∧
      best (twoTo 64 - 1) 0.5 (tiedRows.reverse.map (scoredOf read)) =
        (closestRows (twoTo 64 - 1) 0.5 tiedRows).map (scoredOf read) := by
  have hkeys : (tiedRows.map (·.1.key)).Nodup := by decide
  have hnumbers : ∀ row ∈ tiedRows, row.2.isNaN = false := by decide
  refine ⟨hkeys, hnumbers, best_eq_closestRows hkeys hnumbers ?_ ?_ (.inr (by decide)) (by decide)⟩
  · decide
  · exact (List.reverse_perm _).map _

end Selections

end Orchestration.Memory
