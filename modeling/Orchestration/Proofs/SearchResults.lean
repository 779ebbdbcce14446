import Orchestration.Proofs.ClosestRecords
import Orchestration.Proofs.RefusedSearches

/-!
# Results of searches

What a search finds comes by falling relevance, no more of it than was asked for, and under keys of its own. All
of it reaches the threshold as far as the threshold is a number; against one that is no number a volatile store
keeps nothing, and tables keep all there is.

* `Memory.Listed` — hits that come by falling relevance, under keys of their own.
* `Memory.ReadRows` — what a search of tables that succeeds has read, by `Memory.readRows_of_nearestRows`.
* `Memory.best_listed`, `Memory.DistinctRows.nearestRows_listed` — both stores select so.
* `Memory.DistinctRows` — no two rows have collection and key in common, and calls keep it so.
* `StoreLocation.search_selected` — what is found in any state that is reached.
-/

namespace Orchestration

open Memory Number

/-! ### Doubles that are no number -/

namespace Number

open Float.Model

variable {x y : Float}

theorem compare_notANumber_left (a : UnpackedFloat) : UnpackedFloat.compare .notANumber a = none := by
  cases a <;> rfl

theorem compare_notANumber_right (a : UnpackedFloat) : a.compare .notANumber = none := by
  cases a <;> rfl

theorem unpack_of_isNaN (h : x.isNaN = true) : x.toModel.unpack = .notANumber := by
  have hunpacked : x.toModel.unpack.isNaN = true := h
  cases hx : x.toModel.unpack <;> rw [hx] at hunpacked <;> first | rfl | cases hunpacked

/-- What is at most something is a number, and so is the other. -/
theorem isNaN_of_le (h : x ≤ y) : x.isNaN = false ∧ y.isNaN = false := by
  have hle : (x.toModel.unpack.compare y.toModel.unpack).any (·.isLE) = true := of_decide_eq_true h
  constructor
  · refine Bool.eq_false_iff.mpr fun hx => ?_
    rw [unpack_of_isNaN hx, compare_notANumber_left] at hle
    cases hle
  · refine Bool.eq_false_iff.mpr fun hy => ?_
    rw [unpack_of_isNaN hy, compare_notANumber_right] at hle
    cases hle

/-- Nothing is below what is no number. -/
theorem not_lt_of_isNaN (hy : y.isNaN = true) : ¬x < y := by
  intro h
  have hlt : x.toModel.unpack.lt y.toModel.unpack = true := of_decide_eq_true h
  rw [unpack_of_isNaN hy, UnpackedFloat.lt, compare_notANumber_right] at hlt
  cases hlt

theorem not_lt_iff_le (hx : x.isNaN = false) (hy : y.isNaN = false) : ¬x < y ↔ y ≤ x := by
  rw [lt_iff_place hx hy, le_iff_place hy hx, not_lt]

end Number

/-! ### Selections -/

namespace Memory

/-- Scored records by falling relevance, each under a key of its own. -/
structure Listed (found : List Scored) : Prop where
  /-- no relevance is larger than one before it -/
  falling : found.Pairwise fun a b => b.relevance ≤ a.relevance
  /-- no key occurs twice -/
  distinct : (found.map (·.record.key)).Nodup

theorem listed_nil : Listed [] := ⟨.nil, .nil⟩

/-- What is listed depends on keys and relevances only. -/
theorem Listed.congr {found : List Scored} {rows : List (String × Float)}
    (hrows : found.map (fun s => (s.record.key, s.relevance)) = rows)
    (hfalling : rows.Pairwise fun a b => b.2 ≤ a.2) (hdistinct : (rows.map Prod.fst).Nodup) : Listed found := by
  subst hrows
  rw [List.map_map] at hdistinct
  exact ⟨List.pairwise_map.mp hfalling, hdistinct⟩

/-- So it does not matter whether vectors are shown. -/
theorem Listed.shown {found : List Scored} (h : Listed found) (withEmbeddings : Bool) :
    Listed (found.map fun s => { s with record := s.record.shown withEmbeddings }) where
  falling := List.pairwise_map.mpr h.falling
  distinct := by
    have hkey : ∀ record : Record, (record.shown withEmbeddings).key = record.key := by
      intro record
      cases withEmbeddings <;> rfl
    rw [List.map_map]
    simpa only [Function.comp_def, hkey] using h.distinct

theorem falling_of_ranked {ranked : List Scored} (hranked : Ranked ranked) (hnumbers : Numbered ranked) :
    ranked.Pairwise fun a b => b.relevance ≤ a.relevance := by
  refine List.Pairwise.imp_of_mem (fun {a b} ha hb hab => ?_) hranked
  have hplace : place b.relevance ≤ place a.relevance := (Prod.Lex.monotone_fst_ofLex hab : _)
  exact (le_iff_place (hnumbers b hb) (hnumbers a ha)).mpr hplace

/-! ### Volatile stores -/

/-- **The best of scored records** are listed, are no more than the limit, and all reach the threshold. -/
theorem best_listed {scored : List Scored} (hkeys : (scored.map (·.record.key)).Nodup) (limit : Nat)
    (least : Float) :
    Listed (best limit least scored) ∧ (best limit least scored).length ≤ limit ∧
      ∀ hit ∈ best limit least scored, least ≤ hit.relevance := by
  have hperm := List.mergeSort_perm (scored.filter fun s => least ≤ s.relevance) Scored.precedes
  have hreach : ∀ s ∈ scored.filter fun s => least ≤ s.relevance, least ≤ s.relevance :=
    fun s hs => of_decide_eq_true (List.mem_filter.mp hs).2
  -- what reaches a threshold is a number, so what is kept can be ranked
  have hnumbers : Numbered (scored.filter fun s => least ≤ s.relevance) :=
    fun s hs => (isNaN_of_le (hreach s hs)).2
  refine ⟨⟨?_, ?_⟩, List.length_take_le _ _, fun hit hhit => ?_⟩
  · exact (falling_of_ranked (ranked_mergeSort hnumbers) (hnumbers.perm hperm)).sublist (List.take_sublist _ _)
  · refine List.Nodup.sublist ((List.take_sublist _ _).map _) ?_
    rw [(hperm.map _).nodup_iff]
    exact hkeys.sublist (List.filter_sublist.map _)
  · exact hreach hit (hperm.mem_iff.mp (List.mem_of_mem_take hhit))

namespace Volatile

variable {v : Volatile} {collection : String}

/-- Records are scored one by one, each by its cosine. -/
theorem scores_eq_map {listed : List Record} {query : Vector} {scored : List Scored}
    (h : scores listed query = .ok scored) :
    scored = (listed.filter (!·.embedding.isEmpty)).map fun record =>
      ⟨record, (cosine query record.embedding).toOption.getD 0⟩ := by
  rw [← List.map_id scored]
  refine map_eq_of_mapM_eq_ok h id _ fun record s hs => ?_
  cases hcosine : cosine query record.embedding with
  | error e =>
    rw [hcosine] at hs
    cases hs
  | ok relevance =>
    rw [hcosine] at hs
    obtain rfl := Except.ok.inj hs
    rfl

theorem map_record_scores {listed : List Record} {query : Vector} {scored : List Scored}
    (h : scores listed query = .ok scored) :
    scored.map (·.record) = listed.filter (!·.embedding.isEmpty) := by
  rw [scores_eq_map h, List.map_map]
  exact List.map_id _

/-- The records of a collection have keys of their own. -/
theorem nodup_keys {records : Dictionary Record} (h : Kept records) : (records.values.map (·.key)).Nodup := by
  have hnames : records.values.map (·.key) = records.entries.map Prod.fst := by
    rw [Dictionary.values, List.map_map]
    refine List.map_congr_left fun e he => ?_
    exact (h.keyed e.1 e.2 (Dictionary.mem_entries_iff.mp he)).1
  rw [hnames]
  exact records.nodup_names

/-- **What a volatile store finds** is listed, is no more than the limit, and all reaches the threshold. -/
theorem nearest_listed (h : v.AllKept) {query : Vector} {limit : Nat} {least : Float} {withEmbeddings : Bool}
    {found : List Scored} (hfound : v.nearest collection query limit least withEmbeddings = .ok found) :
    Listed found ∧ found.length ≤ limit ∧ ∀ hit ∈ found, least ≤ hit.relevance := by
  rw [nearest] at hfound
  cases hcollection : v.collections.get? collection with
  | none =>
    rw [hcollection] at hfound
    cases hfound
  | some records =>
    simp only [hcollection] at hfound
    split at hfound
    · obtain rfl := Except.ok.inj hfound
      exact ⟨listed_nil, Nat.zero_le _, fun _ hhit => absurd hhit List.not_mem_nil⟩
    · cases hscores : scores records.values query with
      | error e =>
        rw [hscores] at hfound
        cases hfound
      | ok scored =>
        rw [hscores] at hfound
        obtain rfl := Except.ok.inj hfound
        have hkeys : (scored.map (·.record.key)).Nodup := by
          have hmap : scored.map (·.record.key) = (scored.map (·.record)).map (·.key) :=
            (List.map_map ..).symm
          rw [hmap, map_record_scores hscores]
          exact (nodup_keys (h _ _ hcollection)).sublist (List.filter_sublist.map _)
        obtain ⟨hlisted, hlength, hreach⟩ := best_listed hkeys limit least
        refine ⟨hlisted.shown withEmbeddings, by rwa [List.length_map], ?_⟩
        intro hit hhit
        obtain ⟨s, hs, rfl⟩ := List.mem_map.mp hhit
        exact hreach s hs

end Volatile

/-! ### Tables -/

/-- No two rows have collection and key in common. -/
def DistinctRows (t : Tables) : Prop := t.records.Pairwise fun a b => ¬(a.collection = b.collection ∧ a.key = b.key)

namespace DistinctRows

variable {t : Tables} {collection : String}

theorem filter (h : DistinctRows t) (p : MemoryRow → Bool) : DistinctRows { t with records := t.records.filter p } :=
  List.Pairwise.filter p h

/-- The row at the place of a new one is taken out before that is put in. -/
theorem replaceRow (h : DistinctRows t) (row : MemoryRow) : DistinctRows (replaceRow t row) := by
  refine List.pairwise_append.mpr ⟨List.Pairwise.filter _ h, List.pairwise_singleton _ _, ?_⟩
  intro other hother new hnew
  obtain rfl := List.mem_singleton.mp hnew
  have hkept := (List.mem_filter.mp hother).2
  rw [Bool.not_eq_true', ← Bool.not_eq_true, isAt_iff] at hkept
  exact hkept

theorem removeAll (h : DistinctRows t) (keys : List String) :
    DistinctRows (keys.foldl (removeRow · collection) t) := by
  induction keys generalizing t with
  | nil => exact h
  | cons key keys ih => exact ih (h.filter _)

theorem insertRecord (h : DistinctRows t) {record : Record} {key : String} {next : Tables}
    (hinsert : insertRecord t collection record = .ok (key, next)) : DistinctRows next := by
  rcases insertRecord_cases t collection record with ⟨expected, hrefused⟩ | hfiled
  · rw [hrefused] at hinsert
    cases hinsert
  · rw [hfiled] at hinsert
    obtain ⟨-, rfl⟩ := Prod.mk.inj (Except.ok.inj hinsert)
    exact h.replaceRow _

theorem insertRecords (h : DistinctRows t) {records : List Record} {keys : List String} {next : Tables}
    (hinsert : insertRecords t collection records = .ok (keys, next)) : DistinctRows next := by
  induction records generalizing t keys with
  | nil =>
    obtain ⟨-, rfl⟩ := Prod.mk.inj (Except.ok.inj hinsert)
    exact h
  | cons record records ih =>
    cases hfirst : Memory.insertRecord t collection record with
    | error e =>
      rw [insertRecords_cons_of_error hfirst] at hinsert
      cases hinsert
    | ok filed =>
      obtain ⟨key, middle⟩ := filed
      rw [insertRecords_cons_of_ok hfirst] at hinsert
      cases hrest : Memory.insertRecords middle collection records with
      | error e =>
        rw [hrest] at hinsert
        cases hinsert
      | ok rest =>
        rw [hrest] at hinsert
        obtain ⟨-, rfl⟩ := Prod.mk.inj (Except.ok.inj hinsert)
        exact ih (h.insertRecord hfirst) hrest

/-- A change of a collection leaves such rows, or leaves all as it was. -/
theorem changed {α : Type} (h : DistinctRows t) {outcome : Except MemoryError (α × Tables)}
    (houtcome : ∀ value next, outcome = .ok (value, next) → DistinctRows next) :
    DistinctRows (changed t (inCollection t collection outcome)).2 := by
  cases hpresent : t.collections.contains collection with
  | false =>
    rw [inCollection_absent hpresent]
    exact h
  | true =>
    rw [inCollection_present hpresent]
    cases outcome with
    | error e => exact h
    | ok filed => exact houtcome filed.1 filed.2 rfl

/-- **Every call** leaves rows with places of their own. -/
theorem answer (h : DistinctRows t) (call : Call) : DistinctRows (answerFromTables t call).2 := by
  cases call with
  | create collection =>
    rw [answerFromTables]
    split <;> exact h
  | delete collection =>
    rw [answerFromTables]
    split
    · exact h.filter _
    · exact h
  | upsert collection record => exact h.changed fun _ _ => h.insertRecord
  | upsertBatch collection records => exact h.changed fun _ _ => h.insertRecords
  | remove collection key => exact h.filter _
  | removeBatch collection keys => exact h.removeAll keys
  | collections => exact h
  | holds collection => exact h
  | get collection key withEmbedding => exact h
  | getBatch collection keys withEmbeddings => exact h
  | nearest collection query limit least withEmbeddings => exact h

/-- The rows of one collection have keys of their own. -/
theorem nodup_keys (h : DistinctRows t) {rows : List MemoryRow} (hrows : rows.Sublist t.records)
    (hsame : ∀ row ∈ rows, row.collection = collection) : (rows.map (·.key)).Nodup := by
  refine List.pairwise_map.mpr (List.Pairwise.imp_of_mem (fun {a b} ha hb hab => ?_) (List.Pairwise.sublist hrows h))
  exact fun hkey => hab ⟨(hsame a ha).trans (hsame b hb).symm, hkey⟩

end DistinctRows

/-- A relevance is a number. -/
theorem relevanceOf_isNaN (stored query : Vector) : (relevanceOf stored query).isNaN = false := by
  rw [relevanceOf]
  split
  · decide
  · next h => exact Bool.eq_false_iff.mpr h

theorem limitRows_sublist {α : Type} (limit : Nat) (rows : List α) : (limitRows limit rows).Sublist rows := by
  rw [limitRows]
  split
  · exact List.take_sublist _ _
  · exact .refl _

section ClosestRows

variable {rows : List (MemoryRow × Float)} {limit : Nat} {least : Float}

/-- Rows that are sorted come by falling relevance. -/
theorem rows_falling (hnumbers : ∀ row ∈ rows, row.2.isNaN = false) :
    (rows.mergeSort rowPrecedes).Pairwise fun a b => b.2 ≤ a.2 := by
  -- rows are ranked as records that have nothing but their keys
  let read (row : MemoryRow) : Record := { metadata := { id := row.key }, key := row.key }
  have hread : ∀ row ∈ rows, (read row.1).effectiveKey = row.1.key := fun row _ => ite_self _
  have hnumbered : Numbered (rows.map (scoredOf read)) := by
    intro s hs
    obtain ⟨row, hrow, rfl⟩ := List.mem_map.mp hs
    exact hnumbers row hrow
  have hranked := falling_of_ranked (ranked_mergeSort hnumbered) (hnumbered.perm (List.mergeSort_perm _ _))
  rw [← map_mergeSort_rows hread] at hranked
  exact List.pairwise_map.mp hranked

/-- **The closest rows** come by falling relevance. -/
theorem closestRows_falling (hnumbers : ∀ row ∈ rows, row.2.isNaN = false) :
    (closestRows limit least rows).Pairwise fun a b => b.2 ≤ a.2 :=
  (rows_falling hnumbers).sublist (List.filter_sublist.trans (limitRows_sublist _ _))

theorem nodup_closestRows (hkeys : (rows.map (·.1.key)).Nodup) :
    ((closestRows limit least rows).map (·.1.key)).Nodup := by
  refine List.Nodup.sublist ((List.filter_sublist.trans (limitRows_sublist _ _)).map _) ?_
  rwa [((List.mergeSort_perm rows rowPrecedes).map _).nodup_iff]

theorem length_closestRows_le (hsize : limit < twoTo 63 ∨ rows.length ≤ limit) :
    (closestRows limit least rows).length ≤ limit := by
  refine (List.length_filter_le _ _).trans ?_
  rw [limitRows_eq_take (by rwa [(List.mergeSort_perm rows rowPrecedes).length_eq])]
  exact List.length_take_le _ _

/-- Of rows with relevances that are numbers, those are dropped that are below a threshold that is one. -/
theorem le_of_mem_closestRows (hleast : least.isNaN = false) (hnumbers : ∀ row ∈ rows, row.2.isNaN = false)
    {row : MemoryRow × Float} (hrow : row ∈ closestRows limit least rows) : least ≤ row.2 := by
  have hkept := (List.mem_filter.mp hrow).2
  rw [Bool.not_eq_true', decide_eq_false_iff_not] at hkept
  exact (not_lt_iff_le (hnumbers row (mem_of_mem_closestRows hrow)) hleast).mp hkept

end ClosestRows

theorem key_of_recordOf {withEmbedding : Bool} {row : MemoryRow} {record : Record}
    (h : recordOf withEmbedding row = .ok record) : record.key = row.key := by
  rw [recordOf] at h
  split at h
  · cases h
  · obtain rfl := Except.ok.inj h
    rfl

/-! ### Searches of tables -/

/-- The rows of a collection with vectors as long as that of a query, and how close each is to it. -/
def scoredRows (t : Tables) (collection : String) (query : Vector) : List (MemoryRow × Float) :=
  (t.records.filter fun row => row.collection = collection && row.dimensions = query.length).map fun row =>
    (row, relevanceOf (decodeVector row.embedding) query)

section NearestRows

variable {t : Tables} {collection : String} {query : Vector} {limit : Nat} {least : Float} {withEmbeddings : Bool}
  {found : List Scored}

theorem mem_scoredRows {row : MemoryRow} (hrow : row ∈ t.records) (hcollection : row.collection = collection)
    (hlength : row.dimensions = query.length) :
    (row, relevanceOf (decodeVector row.embedding) query) ∈ scoredRows t collection query :=
  List.mem_map_of_mem (List.mem_filter.mpr ⟨hrow, by simp [hcollection, hlength]⟩)

theorem scoredRows_isNaN : ∀ row ∈ scoredRows t collection query, row.2.isNaN = false := by
  intro row hrow
  obtain ⟨source, -, rfl⟩ := List.mem_map.mp hrow
  exact relevanceOf_isNaN _ _

/-- There are no more of them than vectors in the collection. -/
theorem length_scoredRows_le : (scoredRows t collection query).length ≤ (vectorsOf t collection).length := by
  rw [scoredRows, List.length_map, vectorsOf, List.length_map]
  refine (List.monotone_filter_right _ fun row hrow => ?_).length_le
  simp only [Bool.and_eq_true] at hrow
  exact hrow.1

/-- **The closest rows are read as records**, each of which keeps its relevance. -/
inductive ReadRows (t : Tables) (collection : String) (query : Vector) (limit : Nat) (least : Float)
    (withEmbeddings : Bool) : List Scored → Prop where
  /-- nothing is asked for, or no vector in the collection could be close -/
  | nothing (empty : limit = 0 ∨ query = [] ∨ storedDimensions? t collection none = none) :
      ReadRows t collection query limit least withEmbeddings []
  /-- the vectors are as long as that of the query -/
  | read {found : List Scored} (fits : storedDimensions? t collection none = some query.length)
      (shown : ∀ {α : Type} (ofRecord : Record → α) (ofRow : MemoryRow → α),
        (∀ row record, recordOf withEmbeddings row = .ok record → ofRecord record = ofRow row) →
          found.map (fun s => (ofRecord s.record, s.relevance)) =
            (closestRows limit least (scoredRows t collection query)).map fun row => (ofRow row.1, row.2)) :
      ReadRows t collection query limit least withEmbeddings found

/-- **A search of tables that succeeds** has read the closest rows. -/
theorem readRows_of_nearestRows
    (hfound : nearestRows t collection query limit least withEmbeddings = .ok found) :
    ReadRows t collection query limit least withEmbeddings found := by
  rw [nearestRows] at hfound
  split at hfound
  · next hnothing =>
    obtain rfl := Except.ok.inj hfound
    exact .nothing (hnothing.imp_right .inl)
  cases hstored : storedDimensions? t collection none with
  | none =>
    rw [hstored] at hfound
    obtain rfl := Except.ok.inj hfound
    exact .nothing (.inr (.inr hstored))
  | some expected =>
    simp only [hstored] at hfound
    split at hfound
    · cases hfound
    next hfits =>
    obtain rfl := not_not.mp hfits
    refine .read hstored fun ofRecord ofRow hof => map_eq_of_mapM_eq_ok hfound _ _ fun row s hs => ?_
    cases hrecord : recordOf withEmbeddings row.1 with
    | error e =>
      rw [hrecord] at hs
      cases hs
    | ok record =>
      rw [hrecord] at hs
      obtain rfl := Except.ok.inj hs
      rw [hof _ _ hrecord]

/-- **What tables find** is listed, is no more than the limit, and all reaches a threshold that is a number. A
limit beyond 63 bits cuts nothing off, but then it is also beyond the number of rows that a database can hold. -/
theorem DistinctRows.nearestRows_listed (h : DistinctRows t)
    (hfound : nearestRows t collection query limit least withEmbeddings = .ok found) :
    Listed found ∧ (limit < twoTo 63 ∨ (vectorsOf t collection).length ≤ limit → found.length ≤ limit) ∧
      (least.isNaN = false → ∀ hit ∈ found, least ≤ hit.relevance) := by
  cases readRows_of_nearestRows hfound with
  | nothing => exact ⟨listed_nil, fun _ => Nat.zero_le _, fun _ _ hhit => absurd hhit List.not_mem_nil⟩
  | read fits shown =>
    have hread := shown (·.key) (·.key) fun row record => key_of_recordOf
    have hsame : ∀ row ∈ t.records.filter fun row => row.collection = collection && row.dimensions = query.length,
        row.collection = collection := by
      intro row hrow
      have hboth := (List.mem_filter.mp hrow).2
      simp only [Bool.and_eq_true, decide_eq_true_eq] at hboth
      exact hboth.1
    have hkeys : ((scoredRows t collection query).map (·.1.key)).Nodup := by
      rw [scoredRows, List.map_map]
      exact h.nodup_keys List.filter_sublist hsame
    refine ⟨Listed.congr hread ?_ ?_, fun hsize => ?_, fun hleast hit hhit => ?_⟩
    · exact List.pairwise_map.mpr (closestRows_falling scoredRows_isNaN)
    · rw [List.map_map]
      exact nodup_closestRows hkeys
    · have hlength := congrArg List.length hread
      rw [List.length_map, List.length_map] at hlength
      rw [hlength]
      exact length_closestRows_le (hsize.imp_right length_scoredRows_le.trans)
    · have hmem : (hit.record.key, hit.relevance) ∈
          (closestRows limit least (scoredRows t collection query)).map fun row => (row.1.key, row.2) :=
        hread ▸ List.mem_map_of_mem hhit
      obtain ⟨row, hrow, hpair⟩ := List.mem_map.mp hmem
      rw [← (Prod.mk.inj hpair).2]
      exact le_of_mem_closestRows hleast scoredRows_isNaN hrow

/-- So is the answer of tables to the call for it. -/
theorem DistinctRows.nearest_listed (h : DistinctRows t)
    (hfound : (answerFromTables t (.nearest collection query limit least withEmbeddings)).1 = .ok found) :
    Listed found ∧ (limit < twoTo 63 ∨ (vectorsOf t collection).length ≤ limit → found.length ≤ limit) ∧
      (least.isNaN = false → ∀ hit ∈ found, least ≤ hit.relevance) := by
  have hanswer : inCollection t collection (nearestRows t collection query limit least withEmbeddings) =
      .ok found := hfound
  cases hpresent : t.collections.contains collection with
  | false =>
    rw [inCollection_absent hpresent] at hanswer
    cases hanswer
  | true =>
    rw [inCollection_present hpresent] at hanswer
    exact h.nearestRows_listed hanswer

end NearestRows

/-- Only a number can be reached, so no threshold that is none is reached by all, unless by none at all. -/
theorem reached_by_all_iff {found : List Scored} {least : Float}
    (h : least.isNaN = false → ∀ hit ∈ found, least ≤ hit.relevance) :
    (∀ hit ∈ found, least ≤ hit.relevance) ↔ least.isNaN = false ∨ found = [] := by
  constructor
  · intro hall
    cases found with
    | nil => exact .inr rfl
    | cons hit others => exact .inl (isNaN_of_le (hall hit List.mem_cons_self)).1
  · rintro (hnumber | rfl)
    · exact h hnumber
    · exact nofun

end Memory

/-! ### Stores by place -/

namespace StoreLocation

variable {location : StoreLocation} {s : location.State}

/-- The rows of a store in tables have places of their own. -/
def HoldsDistinctRows : (location : StoreLocation) → location.State → Prop
  | .volatile, _ => True
  | .privateTables, d => ∃ t, d = Database.mk (some t) ∧ DistinctRows t
  | .file _, d => ∃ t, d = Database.mk (some t) ∧ DistinctRows t

theorem Reached.holdsDistinctRows (h : location.Reached s) : location.HoldsDistinctRows s := by
  have hfresh : ∃ t, Database.fresh = ⟨some t⟩ ∧ DistinctRows t := by
    obtain ⟨t, hfresh, -, hrecords⟩ := migrate_setUp_contents {}
    refine ⟨t, hfresh, ?_⟩
    rw [DistinctRows, hrecords]
    exact .nil
  have hstep : ∀ (d : Database) (call : Call), (∃ t, d = ⟨some t⟩ ∧ DistinctRows t) →
      ∃ t, (answerFromDatabase d call).2 = ⟨some t⟩ ∧ DistinctRows t := by
    rintro _ call ⟨t, rfl, hdistinct⟩
    exact ⟨_, rfl, hdistinct.answer call⟩
  induction h with
  | fresh =>
    cases location with
    | volatile => trivial
    | privateTables | file _ => exact hfresh
  | step before call atomic ih =>
    cases location with
    | volatile => trivial
    | privateTables | file _ => exact hstep _ call ih

/-- **What a search finds** in a state that is reached comes by falling relevance, under keys of its own, and is no
more than the limit, unless that is beyond the 63 bits that a database counts with and beyond all that is held. All
of it reaches the threshold if and only if the threshold is a number, or the store is volatile, or nothing was found:
tables let everything pass a threshold that is no number. -/
theorem search_selected (h : location.Reached s) {collection : String} {query : Vector} {limit : Nat}
    {least : Float} {withEmbeddings : Bool} {found : List Scored}
    (hfound : location.search s collection query limit least withEmbeddings = .ok found) :
    (found.Pairwise fun a b => b.relevance ≤ a.relevance) ∧ (found.map (·.record.key)).Nodup ∧
      (limit < twoTo 63 ∨ (location.vectors s collection).length ≤ limit → found.length ≤ limit) ∧
      ((∀ hit ∈ found, least ≤ hit.relevance) ↔
        least.isNaN = false ∨ location = .volatile ∨ found = []) := by
  cases location with
  | volatile =>
    obtain ⟨v, rfl, hkept⟩ := h.mirrors
    obtain ⟨hlisted, hlength, hreach⟩ := Volatile.nearest_listed hkept hfound
    exact ⟨hlisted.falling, hlisted.distinct, fun _ => hlength, fun _ => .inr (.inl rfl), fun _ => hreach⟩
  | privateTables =>
    obtain ⟨t, rfl, hdistinct⟩ := h.holdsDistinctRows
    obtain ⟨hlisted, hlength, hreach⟩ := hdistinct.nearest_listed hfound
    refine ⟨hlisted.falling, hlisted.distinct, hlength, ?_⟩
    simpa using reached_by_all_iff hreach
  | file path =>
    obtain ⟨t, rfl, hdistinct⟩ := h.holdsDistinctRows
    obtain ⟨hlisted, hlength, hreach⟩ := hdistinct.nearest_listed hfound
    refine ⟨hlisted.falling, hlisted.distinct, hlength, ?_⟩
    simpa using reached_by_all_iff hreach

/-- A collection with two vectors of one direction and one that is empty. -/
def threeNoteCalls : List Call :=
  [.create "notes", .upsert "notes" { metadata := { id := "b", text := "one" }, embedding := [⟨1⟩, ⟨2⟩] },
    .upsert "notes" { metadata := { id := "a", text := "two" }, embedding := [⟨1⟩, ⟨2⟩] },
    .upsert "notes" { metadata := { id := "c", text := "three" } }]

theorem search_selected_tied :
    ∃ found, privateTables.Reached (privateTables.after threeNoteCalls) ∧
      privateTables.search (privateTables.after threeNoteCalls) "notes" [⟨1⟩, ⟨2⟩] 2 0.5 true = .ok found ∧
      (found.map (·.record.key)).Nodup ∧ found.length ≤ 2 ∧ ∀ hit ∈ found, 0.5 ≤ hit.relevance := by
  have hreached : privateTables.Reached (privateTables.after threeNoteCalls) := reached_after (by decide)
  have hvectors : privateTables.vectors (privateTables.after threeNoteCalls) "notes" =
      [[⟨1⟩, ⟨2⟩], [⟨1⟩, ⟨2⟩], []] := by decide +kernel
  have hlength : CommonLength (privateTables.vectors (privateTables.after threeNoteCalls) "notes") 2 := by
    rw [hvectors]
    simp [CommonLength]
  have hsearched := hreached.searched hlength (show 2 ≠ 0 by decide) [⟨1⟩, ⟨2⟩] 0.5 true
  cases hfound : privateTables.search (privateTables.after threeNoteCalls) "notes" [⟨1⟩, ⟨2⟩] 2 0.5 true with
  | error e => exact absurd hfound (hsearched.ne_error rfl e)
  | ok found =>
    obtain ⟨-, hdistinct, hlimit, hreach⟩ := search_selected hreached hfound
    exact ⟨found, hreached, rfl, hdistinct, hlimit (.inl (by decide)), hreach.mpr (.inl (by decide))⟩

/-- A collection with a single vector. -/
def oneNoteCalls : List Call :=
  [.create "notes", .upsert "notes" { metadata := { id := "a", text := "one" }, embedding := [⟨1⟩] }]

/-- Tables let a record pass a threshold that is no number, though nothing reaches it. -/
theorem search_passes_notANumber :
    privateTables.Reached (privateTables.after oneNoteCalls) ∧
      ∃ hit, privateTables.search (privateTables.after oneNoteCalls) "notes" [⟨1⟩] 9 (0 / 0) false = .ok [hit] ∧
        ¬(0 / 0 : Float) ≤ hit.relevance := by
  refine ⟨reached_after (by decide), ?_⟩
  let note : Record := { metadata := { id := "a", text := "one" }, embedding := [⟨1⟩] }
  obtain ⟨t, ht, hpresent, hrecords⟩ : ∃ t, privateTables.after oneNoteCalls = Database.mk (some t) ∧
      t.collections.contains "notes" = true ∧ t.records = [rowOf "notes" note] :=
    ⟨_, rfl, by decide +kernel, by decide +kernel⟩
  have hanswer : privateTables.search (privateTables.after oneNoteCalls) "notes" [⟨1⟩] 9 (0 / 0) false =
      nearestRows t "notes" [⟨1⟩] 9 (0 / 0) false := by
    rw [ht]
    exact inCollection_present hpresent _
  have hnan : (0 / 0 : Float).isNaN = true := by decide
  have hkept : ∀ row : MemoryRow × Float, closestRows 9 (0 / 0) [row] = [row] := by
    intro row
    have hlimit : 9 < twoTo 63 := by decide
    simp [closestRows, limitRows, hlimit, not_lt_of_isNaN hnan]
  have hread := recordOf_rowOf false "notes" note
  have hselected : nearestRows t "notes" [⟨1⟩] 9 (0 / 0) false =
      .ok [⟨{ metadata := note.metadata, key := "a" }, relevanceOf (decodeVector (rowOf "notes" note).embedding)
        [⟨1⟩]⟩] := by
    have hcollection : (rowOf "notes" note).collection = "notes" := rfl
    have hdimensions : (rowOf "notes" note).dimensions = 1 := rfl
    rw [nearestRows, if_neg (by decide), storedDimensions?, hrecords]
    simp [hcollection, hdimensions, hkept, hread]
    rfl
  refine ⟨_, hanswer.trans hselected, fun hle => ?_⟩
  rw [(isNaN_of_le hle).1] at hnan
  cases hnan

end StoreLocation

end Orchestration
