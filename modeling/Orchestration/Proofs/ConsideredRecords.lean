import Orchestration.Proofs.RankedSelection

/-!
# Records that a search considers

A search passes no record of its collection over without a reason: what has a vector is found, unless it is not close
enough, or as much as was asked for is found and all of that is as close or closer.

* `Memory.Considered` — a search has found a record, or has one of these reasons.
* `Memory.mem_best_or`, `Memory.mem_closestRows_or` — what the two ways to select leave out.
* `StoreLocation.Reached.considers` — every search considers every record with a vector, in any state that is reached.
* `StoreLocation.Reached.exists_considered` — and a search for a vector of the right length succeeds.
-/

namespace Orchestration

open Memory Number

namespace Memory

/-- **A search has considered** what has this relevance: it has found it, or there is a reason why not. -/
inductive Considered (found : List Scored) (limit : Nat) (least relevance : Float) (metadata : Metadata) : Prop where
  /-- it is found -/
  | hit {s : Scored} (mem : s ∈ found) (metadata : s.record.metadata = metadata) (relevance : s.relevance = relevance)
  /-- it is not close enough -/
  | low (below : ¬least ≤ relevance)
  /-- as much as was asked for is found, and nothing of it is farther off -/
  | full (length : found.length = limit) (closer : ∀ s ∈ found, relevance ≤ s.relevance)

/-! ### What is left out -/

/-- What is close enough is among the best, or there are as many as they may be, and none of them is farther off. -/
theorem mem_best_or {scored : List Scored} {limit : Nat} {least : Float} {s : Scored} (hs : s ∈ scored)
    (hlarge : least ≤ s.relevance) :
    s ∈ best limit least scored ∨
      (best limit least scored).length = limit ∧ ∀ other ∈ best limit least scored, s.relevance ≤ other.relevance := by
  let kept := scored.filter fun s => least ≤ s.relevance
  have hnumbers : Numbered kept := fun s hs => (isNaN_of_le (of_decide_eq_true (List.mem_filter.mp hs).2)).2
  have hfalling := falling_of_ranked (ranked_mergeSort hnumbers) (hnumbers.perm (List.mergeSort_perm _ _))
  have hkept : s ∈ kept := List.mem_filter.mpr ⟨hs, decide_eq_true hlarge⟩
  by_cases hmem : s ∈ best limit least scored
  · exact .inl hmem
  · exact .inr (leftOut_of_pairwise hfalling (List.mem_mergeSort.mpr hkept) hmem)

/-- Of rows with relevances that are numbers one that is close enough is among the closest, or there are as many as
they may be, and none of them is farther off. -/
theorem mem_closestRows_or {rows : List (MemoryRow × Float)} (hnumbers : ∀ row ∈ rows, row.2.isNaN = false)
    {limit : Nat} {least : Float} {row : MemoryRow × Float} (hrow : row ∈ rows) (hlarge : least ≤ row.2) :
    row ∈ closestRows limit least rows ∨
      (closestRows limit least rows).length = limit ∧ ∀ other ∈ closestRows limit least rows, row.2 ≤ other.2 := by
  have hleast := (isNaN_of_le hlarge).1
  have hsorted : row ∈ rows.mergeSort rowPrecedes := List.mem_mergeSort.mpr hrow
  -- a row that is as close as one that is close enough is not dropped
  have hkept (other : MemoryRow × Float) (hother : other ∈ rows) (hcloser : row.2 ≤ other.2) : ¬other.2 < least := by
    rw [not_lt_iff_le (hnumbers other hother) hleast, le_iff_place hleast (hnumbers other hother)]
    have hrowPlace := (le_iff_place hleast (hnumbers row hrow)).mp hlarge
    exact hrowPlace.trans ((le_iff_place (hnumbers row hrow) (hnumbers other hother)).mp hcloser)
  have hself : row.2 ≤ row.2 := (le_iff_place (hnumbers row hrow) (hnumbers row hrow)).mpr le_rfl
  rw [closestRows, limitRows]
  split
  · by_cases hmem : row ∈ (rows.mergeSort rowPrecedes).take limit
    · exact .inl (List.mem_filter.mpr ⟨hmem, by simpa using hkept row hrow hself⟩)
    · obtain ⟨hfull, hcloser⟩ := leftOut_of_pairwise (rows_falling hnumbers) hsorted hmem
      have hall : ((rows.mergeSort rowPrecedes).take limit).filter (fun other => !(other.2 < least)) =
          (rows.mergeSort rowPrecedes).take limit := by
        refine List.filter_eq_self.mpr fun other hother => ?_
        simpa using hkept other (List.mem_mergeSort.mp (List.mem_of_mem_take hother)) (hcloser other hother)
      rw [hall]
      exact .inr ⟨hfull, hcloser⟩
  · exact .inl (List.mem_filter.mpr ⟨hsorted, by simpa using hkept row hrow hself⟩)

end Memory

/-- How close a store takes a vector that it holds to be to the vector of a query. -/
def StoreLocation.closeness : StoreLocation → (stored query : Vector) → Float
  | .volatile, stored, query => (cosine query stored).toOption.getD 0
  | .privateTables, stored, query => relevanceOf stored query
  | .file _, stored, query => relevanceOf stored query

namespace Memory

variable {collection key : String} {record : Record} {query : Vector} {limit : Nat} {least : Float}
  {withEmbeddings : Bool} {found : List Scored}

/-! ### The two kinds of stores -/

/-- **A volatile store** considers every record that has a vector. -/
theorem Volatile.nearest_considers {v : Volatile} (hheld : v.held collection key = some record)
    (hvector : record.embedding ≠ []) (hfound : v.nearest collection query limit least withEmbeddings = .ok found) :
    Considered found limit least (StoreLocation.volatile.closeness record.embedding query) record.metadata := by
  obtain ⟨records, hcollection, hget⟩ := Option.bind_eq_some_iff.mp hheld
  simp only [nearest, hcollection] at hfound
  split at hfound
  · next hlimit =>
    obtain rfl := Except.ok.inj hfound
    exact .full hlimit.symm fun s hs => absurd hs List.not_mem_nil
  cases hscores : scores records.values query with
  | error e =>
    rw [hscores] at hfound
    cases hfound
  | ok scored =>
    rw [hscores] at hfound
    obtain rfl := Except.ok.inj hfound
    have hoffered : ⟨record, StoreLocation.volatile.closeness record.embedding query⟩ ∈ scored := by
      rw [scores_eq_map hscores]
      refine List.mem_map.mpr ⟨record, List.mem_filter.mpr ⟨?_, by simpa using hvector⟩, rfl⟩
      exact List.mem_map.mpr ⟨(key, record), Dictionary.mem_entries_iff.mpr hget, rfl⟩
    by_cases hlarge : least ≤ StoreLocation.volatile.closeness record.embedding query
    · rcases mem_best_or hoffered hlarge with hmem | ⟨hfull, hcloser⟩
      · refine .hit (List.mem_map_of_mem hmem) ?_ rfl
        cases withEmbeddings <;> rfl
      · refine .full (by rw [List.length_map, hfull]) fun s hs => ?_
        obtain ⟨other, hother, rfl⟩ := List.mem_map.mp hs
        exact hcloser other hother
    · exact .low hlarge

/-- The length that is noted for a collection is that of every record in it that has a vector. -/
theorem Agrees.dimensions_of_stored {v : Volatile} {t : Tables} (h : Agrees v t) {length : Nat}
    (hstored : storedDimensions? t collection none = some length) {row : MemoryRow} (hrow : row ∈ t.records)
    (hcollection : row.collection = collection) (hpos : 0 < row.dimensions) : row.dimensions = length := by
  obtain ⟨other, hother, rfl⟩ := Option.map_eq_some_iff.mp hstored
  obtain ⟨hsame, hopos⟩ : other.collection = collection ∧ 0 < other.dimensions := by
    simpa using List.find?_some hother
  exact h.rows_uniform hrow (List.mem_of_find?_eq_some hother) (hcollection.trans hsame.symm) hpos hopos

/-- **Tables** consider every record that has a vector, in a search for a vector that is not empty. -/
theorem Agrees.nearestRows_considers {v : Volatile} {t : Tables} (h : Agrees v t)
    (hheld : v.held collection key = some record) (hvector : record.embedding ≠ []) (hquery : query ≠ [])
    (hfound : nearestRows t collection query limit least withEmbeddings = .ok found) :
    Considered found limit least (relevanceOf record.embedding query) record.metadata := by
  have hrow : rowOf collection record ∈ t.records := h.row_of_held hheld
  have hcollection : (rowOf collection record).collection = collection := rfl
  have hpos : 0 < (rowOf collection record).dimensions := List.length_pos_iff.mpr hvector
  have hbytes : decodeVector (rowOf collection record).embedding = record.embedding := decodeVector_encodeVector _
  have hread := recordOf_rowOf withEmbeddings collection record
  generalize rowOf collection record = row at hrow hcollection hpos hbytes hread
  cases readRows_of_nearestRows hfound with
  | nothing empty =>
    rcases empty with hlimit | hempty | hnone
    · exact .full hlimit.symm fun s hs => absurd hs List.not_mem_nil
    · exact absurd hempty hquery
    · -- the row of the record would have shown the length
      have hmissing := List.find?_eq_none.mp (Option.map_eq_none_iff.mp hnone) _ hrow
      simp [hcollection, hpos] at hmissing
  | read fits shown =>
    have hlength := h.dimensions_of_stored fits hrow hcollection hpos
    have hoffered := mem_scoredRows hrow hcollection hlength
    rw [hbytes] at hoffered
    have hshown := shown (fun record => some record.metadata)
      (fun row => (recordOf withEmbeddings row).toOption.map (·.metadata)) fun row record hrecord => by
        rw [hrecord, Except.toOption, Option.map_some]
    by_cases hlarge : least ≤ relevanceOf record.embedding query
    · rcases mem_closestRows_or scoredRows_isNaN hoffered hlarge with hmem | ⟨hfull, hcloser⟩
      · have hhit : (some record.metadata, relevanceOf record.embedding query) ∈
            found.map fun s => (some s.record.metadata, s.relevance) := by
          rw [hshown]
          refine List.mem_map.mpr ⟨_, hmem, ?_⟩
          simp only [hread, Except.toOption, Option.map_some]
        obtain ⟨s, hs, hsame⟩ := List.mem_map.mp hhit
        obtain ⟨hmetadata, hrelevance⟩ := Prod.mk.inj hsame
        exact .hit hs (Option.some.inj hmetadata) hrelevance
      · have hlengths := congrArg List.length hshown
        rw [List.length_map, List.length_map] at hlengths
        refine .full (hlengths.trans hfull) fun s hs => ?_
        obtain ⟨other, hother, hpair⟩ := List.mem_map.mp (hshown ▸ List.mem_map_of_mem hs)
        rw [← (Prod.mk.inj hpair).2]
        exact hcloser other hother
    · exact .low hlarge

end Memory

/-! ### Stores by place -/

namespace StoreLocation

variable {location : StoreLocation} {s : location.State} {collection key : String} {record : Record}
  {query : Vector} {limit : Nat} {least : Float} {withEmbeddings : Bool} {found : List Scored}

/-- **Every search considers every record** with a vector, in any state that is reached. -/
theorem Reached.considers (h : location.Reached s) (hlook : location.look s collection key = .ok (some record))
    (hvector : record.embedding ≠ []) (hquery : query ≠ [])
    (hfound : location.search s collection query limit least withEmbeddings = .ok found) :
    Considered found limit least (location.closeness record.embedding query) record.metadata := by
  obtain ⟨v, hmirrors⟩ := h.mirrors
  rw [hmirrors.look_eq] at hlook
  obtain ⟨held, hheld, rfl⟩ := Option.map_eq_some_iff.mp (Except.ok.inj hlook)
  have htables {t : Tables} (hagrees : Agrees v t) (hvector : held.embedding ≠ [])
      (hanswer : (answerFromTables t (.nearest collection query limit least withEmbeddings)).1 = .ok found) :
      Considered found limit least (relevanceOf held.embedding query) held.metadata := by
    have hpresent : t.collections.contains collection = true := hagrees.contains_of_row (hagrees.row_of_held hheld)
    have hrows : inCollection t collection (nearestRows t collection query limit least withEmbeddings) = .ok found :=
      hanswer
    rw [inCollection_present hpresent] at hrows
    exact hagrees.nearestRows_considers hheld hvector hquery hrows
  cases location with
  | volatile =>
    obtain ⟨rfl, -⟩ := hmirrors
    exact Volatile.nearest_considers hheld hvector hfound
  | privateTables | file _ =>
    obtain ⟨t, rfl, hagrees⟩ := hmirrors
    exact htables hagrees hvector hfound

/-- The vector of a record is one of those of its collection. -/
theorem Reached.mem_vectors (h : location.Reached s) (hlook : location.look s collection key = .ok (some record)) :
    record.embedding ∈ location.vectors s collection := by
  obtain ⟨v, hmirrors⟩ := h.mirrors
  rw [hmirrors.look_eq] at hlook
  obtain ⟨held, hheld, rfl⟩ := Option.map_eq_some_iff.mp (Except.ok.inj hlook)
  have htables {t : Tables} (hagrees : Agrees v t) : held.embedding ∈ vectorsOf t collection :=
    mem_vectorsOf.mpr ⟨_, hagrees.row_of_held hheld, rfl, decodeVector_encodeVector _⟩
  cases location with
  | volatile =>
    obtain ⟨rfl, -⟩ := hmirrors
    exact List.mem_map_of_mem (Volatile.mem_values_iff.mpr ⟨key, hheld⟩)
  | privateTables | file _ =>
    obtain ⟨t, rfl, hagrees⟩ := hmirrors
    exact htables hagrees

/-- So it has the length that they have in common. -/
theorem Reached.commonLength (h : location.Reached s) (hlook : location.look s collection key = .ok (some record))
    (hvector : record.embedding ≠ []) : CommonLength (location.vectors s collection) record.embedding.length := by
  have hmem := h.mem_vectors hlook
  have huniform : ∃ length, ∀ x ∈ location.vectors s collection, x ≠ [] → x.length = length := by
    obtain ⟨v, hmirrors⟩ := h.mirrors
    have hregular := hmirrors.regular
    cases location with
    | volatile => exact hregular.uniform collection
    | privateTables | file _ =>
      obtain ⟨t, rfl, htables⟩ := hregular
      exact htables.uniform collection
  obtain ⟨length, hlength⟩ := huniform
  exact ⟨⟨_, hmem, hvector⟩, fun x hx hother => (hlength x hx hother).trans (hlength _ hmem hvector).symm⟩

/-- **A search for a vector of the length of a record's** in its collection succeeds, and considers the record. -/
theorem Reached.exists_considered (h : location.Reached s)
    (hlook : location.look s collection key = .ok (some record)) (hvector : record.embedding ≠ [])
    (hlength : query.length = record.embedding.length) (hlimit : limit ≠ 0) (least : Float) (withEmbeddings : Bool) :
    ∃ found, location.search s collection query limit least withEmbeddings = .ok found ∧
      Considered found limit least (location.closeness record.embedding query) record.metadata := by
  have hquery : query ≠ [] := List.ne_nil_of_length_pos (hlength ▸ List.length_pos_iff.mpr hvector)
  have hsearched := h.searched (h.commonLength hlook hvector) hlimit query least withEmbeddings
  cases hfound : location.search s collection query limit least withEmbeddings with
  | error e => exact absurd hfound (hsearched.ne_error hlength e)
  | ok found => exact ⟨found, rfl, h.considers hlook hvector hquery hfound⟩

end StoreLocation

end Orchestration
