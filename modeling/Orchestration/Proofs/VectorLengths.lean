import Orchestration.Proofs.StoreStates
import Orchestration.Proofs.Traversals

/-!
# Lengths of vectors

Whatever steps clients took, a store is regular: the vectors of a collection that are not empty have one length,
records are found under their own keys, and a row notes the length of its vector. So what a store says of the
length of a vector depends on that one length, and not on the order in which it goes through its records.

* `Memory.CommonLength` — the length of the vectors that are not empty.
* `Memory.Volatile.Regular`, `Memory.RegularTables` — what is said of the two kinds of stores.
* `StoreLocation.reached_regular` — every state that is reached is regular.
-/

namespace Orchestration

/-! ### Searches in any order -/

/-- Where whatever is found has the same value, a search in another order finds the same value. -/
theorem map_find?_perm {α β : Type} {l other : List α} {p : α → Bool} {g : α → β} (hperm : other.Perm l)
    (halike : ∀ a ∈ l, ∀ b ∈ l, p a → p b → g a = g b) :
    (other.find? p).map g = (l.find? p).map g := by
  have hother : ∀ a ∈ other, ∀ b ∈ other, p a → p b → g a = g b := fun a ha b hb =>
    halike a (hperm.mem_iff.mp ha) b (hperm.mem_iff.mp hb)
  ext value
  rw [map_find?_eq_some_iff hother, map_find?_eq_some_iff halike]
  exact exists_congr fun a => and_congr_left' hperm.mem_iff

namespace Memory

open Number

/-- Some of the vectors are not empty, and all that are not have the length. -/
def CommonLength (vectors : List Vector) (length : Nat) : Prop :=
  (∃ x ∈ vectors, x ≠ []) ∧ ∀ x ∈ vectors, x ≠ [] → x.length = length

theorem commonLength_of_uniform {listed : List Record} {length : Nat}
    (hexists : ∃ record ∈ listed, record.embedding ≠ [])
    (hcommon : ∀ record ∈ listed, record.embedding ≠ [] → record.embedding.length = length) :
    CommonLength (listed.map (·.embedding)) length := by
  obtain ⟨record, hrecord, hvector⟩ := hexists
  refine ⟨⟨_, List.mem_map_of_mem hrecord, hvector⟩, fun x hx hother => ?_⟩
  obtain ⟨another, hanother, rfl⟩ := List.mem_map.mp hx
  exact hcommon another hanother hother

theorem CommonLength.unique {vectors : List Vector} {length other : Nat} (h : CommonLength vectors length)
    (hother : CommonLength vectors other) : length = other := by
  obtain ⟨⟨x, hx, hvector⟩, hlength⟩ := h
  exact (hlength x hx hvector).symm.trans (hother.2 x hx hvector)

/-- A common length is that of some vector, and so it is not that of the empty one. -/
theorem CommonLength.pos {vectors : List Vector} {length : Nat} (h : CommonLength vectors length) : 0 < length := by
  obtain ⟨⟨x, hx, hvector⟩, hcommon⟩ := h
  rw [← hcommon x hx hvector]
  exact List.length_pos_iff.mpr hvector

theorem commonLength_perm {vectors listed : List Vector} (h : listed.Perm vectors) {length : Nat} :
    CommonLength listed length ↔ CommonLength vectors length := by
  simp only [CommonLength, h.mem_iff]

/-! ### Volatile stores -/

namespace Volatile

/-- The length of the first vector in a listing that is filed under another key and is not empty. -/
def firstLength? (entries : List (String × Record)) (key : String) : Option Nat :=
  (entries.find? fun e => e.1 ≠ key && !e.2.embedding.isEmpty).map (·.2.embedding.length)

/-- The records closest to a vector, found in a listing of a collection. -/
def nearestAmong (listed : List Record) (query : Vector) (limit : Nat) (least : Float)
    (withEmbeddings : Bool) : Except MemoryError (List Scored) :=
  if limit = 0 then .ok []
  else (scores listed query).map fun scored =>
    (best limit least scored).map fun s => { s with record := s.record.shown withEmbeddings }

/-- The vectors of a collection. -/
def vectors (v : Volatile) (collection : String) : List Vector :=
  (((v.collections.get? collection).getD ∅).values).map (·.embedding)

/-- **What is kept** by a volatile store in each collection, and what its answers rest on. -/
structure Regular (v : Volatile) : Prop where
  /-- a record is held under its own key -/
  keyed : ∀ collection key record, v.held collection key = some record → record.key = key
  /-- vectors that are not empty have one length -/
  uniform : ∀ collection, ∃ length, ∀ x ∈ v.vectors collection, x ≠ [] → x.length = length
  /-- the length that is asked of a new vector is the same in whatever order the records are listed -/
  asked : ∀ collection records, v.collections.get? collection = some records →
    ∀ entries, entries.Perm records.entries → ∀ key, firstLength? entries key = dimensions? records key
  /-- a search reports lengths at odds if the length of the query is not the common one -/
  refused : ∀ collection query limit least withEmbeddings expected actual,
    (v.answer (.nearest collection query limit least withEmbeddings)).1 =
        .error (.dimensionMismatch expected actual) ↔
      limit ≠ 0 ∧ expected = query.length ∧ CommonLength (v.vectors collection) actual ∧
        actual ≠ query.length
  /-- so does a search through the records in any other order -/
  refused_inAnyOrder : ∀ collection listed, listed.Perm (((v.collections.get? collection).getD ∅).values) →
    ∀ query limit least withEmbeddings expected actual,
      nearestAmong listed query limit least withEmbeddings = .error (.dimensionMismatch expected actual) ↔
        limit ≠ 0 ∧ expected = query.length ∧ CommonLength (v.vectors collection) actual ∧
          actual ≠ query.length

variable {v : Volatile} {query : Vector} {listed : List Record} {length : Nat}

/-- Vectors of the length of the query are all compared with it. -/
theorem scores_isOk (h : ∀ record ∈ listed, record.embedding ≠ [] → record.embedding.length = query.length) :
    ∃ scored, scores listed query = .ok scored := by
  refine exists_mapM_eq_ok fun record hmem => ?_
  obtain ⟨hlisted, hvector⟩ := List.mem_filter.mp hmem
  have hlength := h record hlisted (by simpa using hvector)
  rw [cosine, if_pos hlength.symm]
  dsimp only
  split
  · exact ⟨_, rfl⟩
  · exact ⟨_, rfl⟩

/-- A vector of another length is refused, whichever it is. -/
theorem scores_eq_error (hexists : ∃ record ∈ listed, record.embedding ≠ [])
    (hcommon : ∀ record ∈ listed, record.embedding ≠ [] → record.embedding.length = length)
    (hodds : length ≠ query.length) :
    scores listed query = .error (.dimensionMismatch query.length length) := by
  obtain ⟨some, hsome, hvector⟩ := hexists
  rw [scores]
  cases hfilter : listed.filter (!·.embedding.isEmpty) with
  | nil =>
    have hnone := List.filter_eq_nil_iff.mp hfilter some hsome
    exact absurd (by simpa using hvector) hnone
  | cons first rest =>
    -- the first vector that is looked at is as long as any other
    have hfirst : first ∈ listed ∧ (!first.embedding.isEmpty) = true :=
      List.mem_filter.mp (hfilter ▸ List.mem_cons_self)
    have hlength := hcommon first hfirst.1 (by simpa using hfirst.2)
    rw [List.mapM_cons, cosine, hlength, if_neg (Ne.symm hodds)]
    rfl

/-- **A search through a listing** refuses a query whose length is not the common one, and no other. -/
theorem nearestAmong_refused_iff (query : Vector)
    (huniform : ∃ length, ∀ record ∈ listed, record.embedding ≠ [] → record.embedding.length = length)
    (limit : Nat) (least : Float) (withEmbeddings : Bool) (expected actual : Nat) :
    nearestAmong listed query limit least withEmbeddings = .error (.dimensionMismatch expected actual) ↔
      limit ≠ 0 ∧ expected = query.length ∧ CommonLength (listed.map (·.embedding)) actual ∧
        actual ≠ query.length := by
  obtain ⟨length, hcommon⟩ := huniform
  rw [nearestAmong]
  by_cases hlimit : limit = 0
  · rw [if_pos hlimit]
    exact ⟨nofun, fun h => absurd hlimit h.1⟩
  rw [if_neg hlimit]
  by_cases hodds : (∃ record ∈ listed, record.embedding ≠ []) ∧ length ≠ query.length
  · rw [scores_eq_error hodds.1 hcommon hodds.2]
    constructor
    · intro h
      obtain ⟨rfl, rfl⟩ := MemoryError.dimensionMismatch.inj (Except.error.inj h)
      exact ⟨hlimit, rfl, commonLength_of_uniform hodds.1 hcommon, hodds.2⟩
    · rintro ⟨-, rfl, hactual, -⟩
      rw [hactual.unique (commonLength_of_uniform hodds.1 hcommon)]
      rfl
  · -- there is nothing to compare the query with, or it is as long as all the rest
    have hfits : ∀ record ∈ listed, record.embedding ≠ [] → record.embedding.length = query.length := by
      intro record hrecord hvector
      have hlength := Decidable.of_not_not fun hne => hodds ⟨⟨record, hrecord, hvector⟩, hne⟩
      exact (hcommon record hrecord hvector).trans hlength
    obtain ⟨scored, hscored⟩ := scores_isOk hfits
    rw [hscored]
    refine ⟨nofun, ?_⟩
    rintro ⟨-, -, ⟨hexists, hactual⟩, hne⟩
    obtain ⟨x, hx, hvector⟩ := hexists
    obtain ⟨record, hrecord, rfl⟩ := List.mem_map.mp hx
    exact absurd ((hactual _ hx hvector).symm.trans (hfits record hrecord hvector)) hne

/-- What is filed in a collection is what is held in it. -/
theorem mem_values_iff {collection : String} {record : Record} :
    record ∈ ((v.collections.get? collection).getD ∅).values ↔
      ∃ key, v.held collection key = some record := by
  rw [Dictionary.mem_values_iff]
  cases hcollection : v.collections.get? collection with
  | none =>
    have hnone : ∀ key, v.held collection key = none := fun key => by
      rw [held, hcollection, Option.bind_none]
    simp [hnone]
  | some records =>
    simp only [held_of_collection hcollection, Option.getD_some]

theorem AllKept.uniform (h : v.AllKept) (collection : String) :
    ∃ length, ∀ record ∈ ((v.collections.get? collection).getD ∅).values, record.embedding ≠ [] →
      record.embedding.length = length := by
  cases hcollection : v.collections.get? collection with
  | none => exact ⟨0, fun _ hrecord => absurd hrecord List.not_mem_nil⟩
  | some records =>
    rw [Option.getD_some]
    by_cases hexists : ∃ record ∈ records.values, record.embedding ≠ []
    · obtain ⟨first, hfirst, hvector⟩ := hexists
      obtain ⟨key, hkey⟩ := Dictionary.mem_values_iff.mp hfirst
      refine ⟨first.embedding.length, fun record hrecord hother => ?_⟩
      obtain ⟨other, hget⟩ := Dictionary.mem_values_iff.mp hrecord
      exact (h _ _ hcollection).uniform other key record first hget hkey hother hvector
    · exact ⟨0, fun record hrecord hvector => absurd ⟨record, hrecord, hvector⟩ hexists⟩

/-- **What every call keeps** makes a volatile store regular. -/
theorem AllKept.regular (h : v.AllKept) : v.Regular where
  keyed collection key record hheld := (h.keyed hheld).1
  uniform collection := by
    obtain ⟨length, hcommon⟩ := h.uniform collection
    refine ⟨length, fun x hx hvector => ?_⟩
    obtain ⟨record, hrecord, rfl⟩ := List.mem_map.mp hx
    exact hcommon record hrecord hvector
  asked collection records hcollection entries hperm key := by
    refine map_find?_perm hperm ?_
    rintro ⟨one, record⟩ hone ⟨two, another⟩ htwo hp hq
    obtain ⟨-, hvector⟩ := Bool.and_eq_true_iff.mp hp
    obtain ⟨-, hanother⟩ := Bool.and_eq_true_iff.mp hq
    exact (h _ _ hcollection).uniform one two record another (Dictionary.mem_entries_iff.mp hone)
      (Dictionary.mem_entries_iff.mp htwo) (by simpa using hvector) (by simpa using hanother)
  refused collection query limit least withEmbeddings expected actual := by
    have hlisted := nearestAmong_refused_iff query (h.uniform collection) limit least
      withEmbeddings expected actual
    rw [Volatile.answer, nearest]
    cases hcollection : v.collections.get? collection with
    | none =>
      have hvectors : v.vectors collection = [] := by rw [vectors, hcollection]; rfl
      rw [hvectors]
      constructor
      · intro h
        cases h
      · rintro ⟨-, -, ⟨⟨x, hx, -⟩, -⟩, -⟩
        cases hx
    | some records =>
      rw [vectors]
      rw [hcollection] at hlisted ⊢
      exact hlisted
  refused_inAnyOrder collection listed hperm query limit least withEmbeddings expected actual := by
    obtain ⟨length, hcommon⟩ := h.uniform collection
    have hlisted := nearestAmong_refused_iff query
      ⟨length, fun record hrecord => hcommon record (hperm.mem_iff.mp hrecord)⟩ limit least withEmbeddings
      expected actual
    rw [commonLength_perm (hperm.map _)] at hlisted
    exact hlisted

end Volatile

/-! ### Tables -/

/-- The vectors of a collection in tables. -/
def vectorsOf (t : Tables) (collection : String) : List Vector :=
  (t.records.filter (·.collection = collection)).map fun row => decodeVector row.embedding

/-- **What is kept** by tables in each collection, and what their answers rest on. -/
structure RegularTables (t : Tables) : Prop where
  /-- a row notes how many numbers its bytes stand for, and there are four bytes for each -/
  sized : ∀ row ∈ t.records, row.dimensions = (decodeVector row.embedding).length ∧
    row.embedding.length = 4 * row.dimensions
  /-- the record of a row has the key that the row is filed under -/
  keyed : ∀ row ∈ t.records, ∀ withEmbedding record, recordOf withEmbedding row = .ok record →
    record.key = row.key ∧ record.effectiveKey = row.key
  /-- vectors that are not empty have one length -/
  uniform : ∀ collection, ∃ length, ∀ x ∈ vectorsOf t collection, x ≠ [] → x.length = length
  /-- the length that is asked of a new vector is the same in whatever order the rows stand -/
  asked : ∀ rows, rows.Perm t.records → ∀ collection skipped,
    storedDimensions? { t with records := rows } collection skipped = storedDimensions? t collection skipped
  /-- a search reports lengths at odds if the length of the query is not the common one, in whatever order
  the rows stand -/
  refused : ∀ rows, rows.Perm t.records →
    ∀ collection query limit least withEmbeddings expected actual,
      (answerFromTables { t with records := rows }
          (.nearest collection query limit least withEmbeddings)).1 =
          .error (.dimensionMismatch expected actual) ↔
        limit ≠ 0 ∧ query ≠ [] ∧ actual = query.length ∧ CommonLength (vectorsOf t collection) expected ∧
          expected ≠ query.length

theorem length_encodeVector (v : Vector) : (encodeVector v).length = 4 * v.length := by
  induction v with
  | nil => rfl
  | cons x v ih =>
    have hbytes : encodeVector (x :: v) = singleBytes x ++ encodeVector v := List.flatMap_cons
    have hfour : (singleBytes x).length = 4 := rfl
    rw [hbytes, List.length_append, hfour, ih, List.length_cons]
    omega

theorem mem_of_mem_closestRows {limit : Nat} {least : Float} {scored : List (MemoryRow × Float)}
    {s : MemoryRow × Float} (h : s ∈ closestRows limit least scored) : s ∈ scored := by
  have hlimited := (List.mem_filter.mp h).1
  rw [limitRows] at hlimited
  have hsorted : s ∈ scored.mergeSort rowPrecedes := by
    split at hlimited
    · exact List.mem_of_mem_take hlimited
    · exact hlimited
  exact List.mem_mergeSort.mp hsorted

theorem mem_vectorsOf {t : Tables} {collection : String} {x : Vector} :
    x ∈ vectorsOf t collection ↔
      ∃ row ∈ t.records, row.collection = collection ∧ decodeVector row.embedding = x := by
  simp [vectorsOf, and_assoc]

namespace Agrees

variable {v : Volatile} {t : Tables}

/-- Tables with their rows in another order hold the same. -/
theorem reorder (h : Agrees v t) {rows : List MemoryRow} (hperm : rows.Perm t.records) :
    Agrees v { t with records := rows } where
  kept := h.kept
  collections := h.collections
  rows row := hperm.mem_iff.trans (h.rows row)

theorem contains_of_row (h : Agrees v t) {row : MemoryRow} (hrow : row ∈ t.records) :
    t.collections.contains row.collection = true := by
  obtain ⟨record, hheld, -⟩ := (h.rows row).mp hrow
  obtain ⟨records, hcollection, -⟩ := Option.bind_eq_some_iff.mp hheld
  rw [h.collections]
  exact Dictionary.contains_of_get? hcollection

theorem dimensions_eq (h : Agrees v t) {row : MemoryRow} (hrow : row ∈ t.records) :
    row.dimensions = (decodeVector row.embedding).length := by
  obtain ⟨record, -, hr⟩ := (h.rows row).mp hrow
  rw [← hr]
  exact congrArg List.length (decodeVector_encodeVector record.embedding).symm

/-- Of two rows of a collection whose vectors are not empty the vectors are of one length. -/
theorem length_eq (h : Agrees v t) {row other : MemoryRow} (hrow : row ∈ t.records)
    (hother : other ∈ t.records) (hsame : row.collection = other.collection)
    (hvector : decodeVector row.embedding ≠ []) (hovector : decodeVector other.embedding ≠ []) :
    (decodeVector row.embedding).length = (decodeVector other.embedding).length := by
  have hpos := List.length_pos_iff.mpr hvector
  have hopos := List.length_pos_iff.mpr hovector
  rw [← h.dimensions_eq hrow] at hpos ⊢
  rw [← h.dimensions_eq hother] at hopos ⊢
  exact h.rows_uniform hrow hother hsame hpos hopos

/-- **The length found** in a collection is the common one. -/
theorem storedDimensions?_eq_some_iff (h : Agrees v t) {collection : String} {length : Nat} :
    storedDimensions? t collection none = some length ↔ CommonLength (vectorsOf t collection) length := by
  have hfound : ∀ row : MemoryRow,
      (row.collection = collection && 0 < row.dimensions && (none : Option String) ≠ some row.key) = true ↔
        row.collection = collection ∧ 0 < row.dimensions := by
    intro row
    simp
  rw [storedDimensions?, map_find?_eq_some_iff]
  · constructor
    · rintro ⟨row, hrow, hp, rfl⟩
      obtain ⟨rfl, hpos⟩ := (hfound row).mp hp
      rw [h.dimensions_eq hrow] at hpos ⊢
      have hvector := List.length_pos_iff.mp hpos
      refine ⟨⟨_, mem_vectorsOf.mpr ⟨row, hrow, rfl, rfl⟩, hvector⟩, fun x hx hother => ?_⟩
      obtain ⟨other, horow, hsame, rfl⟩ := mem_vectorsOf.mp hx
      exact h.length_eq horow hrow hsame hother hvector
    · rintro ⟨⟨x, hx, hvector⟩, hlength⟩
      obtain ⟨row, hrow, hsame, rfl⟩ := mem_vectorsOf.mp hx
      have hdimensions := h.dimensions_eq hrow
      refine ⟨row, hrow, (hfound row).mpr ⟨hsame, ?_⟩, hdimensions.trans (hlength _ hx hvector)⟩
      rw [hdimensions]
      exact List.length_pos_iff.mpr hvector
  · intro row hrow other hother hp hq
    obtain ⟨hsame, hpos⟩ := (hfound row).mp hp
    obtain ⟨hosame, hopos⟩ := (hfound other).mp hq
    exact h.rows_uniform hrow hother (hsame.trans hosame.symm) hpos hopos

/-- The record of every row can be read. -/
theorem exists_recordOf (h : Agrees v t) {row : MemoryRow} (hrow : row ∈ t.records) (withEmbedding : Bool) :
    ∃ record, recordOf withEmbedding row = .ok record := by
  obtain ⟨record, -, hr⟩ := (h.rows row).mp hrow
  rw [← hr, recordOf_rowOf]
  exact ⟨_, rfl⟩

/-- A search for the length that is noted in the rows reads the closest of them. -/
theorem exists_nearestRows (h : Agrees v t) {query : Vector}
    (hlength : CommonLength (vectorsOf t collection) query.length) (limit : Nat) (least : Float)
    (withEmbeddings : Bool) : ∃ found, nearestRows t collection query limit least withEmbeddings = .ok found := by
  rw [nearestRows, h.storedDimensions?_eq_some_iff.mpr hlength]
  split
  · exact ⟨[], rfl⟩
  · dsimp only
    rw [if_neg (not_not.mpr rfl)]
    refine exists_mapM_eq_ok fun s hs => ?_
    obtain ⟨row, hrow, rfl⟩ := List.mem_map.mp (mem_of_mem_closestRows hs)
    obtain ⟨record, hrecord⟩ := h.exists_recordOf (List.mem_filter.mp hrow).1 withEmbeddings
    rw [hrecord]
    exact ⟨_, rfl⟩

/-- **A search through the rows** refuses a query whose length is not the common one, and no other. -/
theorem nearestRows_refused_iff (h : Agrees v t) (collection : String) (query : Vector) (limit : Nat)
    (least : Float) (withEmbeddings : Bool) (expected actual : Nat) :
    nearestRows t collection query limit least withEmbeddings =
        .error (.dimensionMismatch expected actual) ↔
      limit ≠ 0 ∧ query ≠ [] ∧ actual = query.length ∧ CommonLength (vectorsOf t collection) expected ∧
        expected ≠ query.length := by
  by_cases hfits : CommonLength (vectorsOf t collection) query.length
  · obtain ⟨found, hfound⟩ := h.exists_nearestRows hfits limit least withEmbeddings
    rw [hfound]
    refine ⟨nofun, ?_⟩
    rintro ⟨-, -, -, hlength, hne⟩
    exact absurd (hlength.unique hfits) hne
  rw [nearestRows]
  by_cases hnothing : limit = 0 ∨ query = []
  · rw [if_pos hnothing]
    exact ⟨nofun, fun hasked => absurd hnothing (not_or.mpr ⟨hasked.1, hasked.2.1⟩)⟩
  rw [if_neg hnothing]
  obtain ⟨hlimit, hquery⟩ := not_or.mp hnothing
  rw [← h.storedDimensions?_eq_some_iff] at hfits ⊢
  cases hstored : storedDimensions? t collection none with
  | none => exact ⟨nofun, fun hasked => nomatch hasked.2.2.2.1⟩
  | some length =>
    have hodds : length ≠ query.length := fun heq => hfits (heq ▸ hstored)
    dsimp only
    rw [if_pos hodds]
    constructor
    · intro hrefused
      obtain ⟨rfl, rfl⟩ := MemoryError.dimensionMismatch.inj (Except.error.inj hrefused)
      exact ⟨hlimit, hquery, rfl, rfl, hodds⟩
    · rintro ⟨-, -, rfl, hlength, -⟩
      rw [Option.some.inj hlength]

theorem nearest_refused_iff (h : Agrees v t) (collection : String) (query : Vector) (limit : Nat)
    (least : Float) (withEmbeddings : Bool) (expected actual : Nat) :
    (answerFromTables t (.nearest collection query limit least withEmbeddings)).1 =
        .error (.dimensionMismatch expected actual) ↔
      limit ≠ 0 ∧ query ≠ [] ∧ actual = query.length ∧ CommonLength (vectorsOf t collection) expected ∧
        expected ≠ query.length := by
  cases hpresent : t.collections.contains collection with
  | true =>
    have hanswer : (answerFromTables t (.nearest collection query limit least withEmbeddings)).1 =
        nearestRows t collection query limit least withEmbeddings := inCollection_present hpresent _
    rw [hanswer]
    exact h.nearestRows_refused_iff collection query limit least withEmbeddings expected actual
  | false =>
    have hanswer : (answerFromTables t (.nearest collection query limit least withEmbeddings)).1 =
        .error (.collectionNotFound collection) := inCollection_absent hpresent _
    rw [hanswer]
    refine ⟨nofun, ?_⟩
    rintro ⟨-, -, -, ⟨⟨x, hx, -⟩, -⟩, -⟩
    obtain ⟨row, hrow, rfl, -⟩ := mem_vectorsOf.mp hx
    rw [h.contains_of_row hrow] at hpresent
    cases hpresent

/-- **Tables that agree** with a volatile store are regular. -/
theorem regular (h : Agrees v t) : RegularTables t where
  sized row hrow := by
    refine ⟨h.dimensions_eq hrow, ?_⟩
    obtain ⟨record, -, hr⟩ := (h.rows row).mp hrow
    rw [← hr]
    exact length_encodeVector record.embedding
  keyed row hrow withEmbedding record hread := by
    obtain ⟨held, hheld, hr⟩ := (h.rows row).mp hrow
    rw [← hr, recordOf_rowOf] at hread
    obtain rfl := Except.ok.inj hread
    have heffective := (h.kept.keyed hheld).2
    exact ⟨heffective, held.effectiveKey_filed.trans heffective⟩
  uniform collection := by
    by_cases hexists : ∃ x ∈ vectorsOf t collection, x ≠ []
    · obtain ⟨x, hx, hvector⟩ := hexists
      obtain ⟨row, hrow, rfl, rfl⟩ := mem_vectorsOf.mp hx
      refine ⟨(decodeVector row.embedding).length, fun y hy hother => ?_⟩
      obtain ⟨other, horow, hsame, rfl⟩ := mem_vectorsOf.mp hy
      exact h.length_eq horow hrow hsame hother hvector
    · exact ⟨0, fun x hx hvector => absurd ⟨x, hx, hvector⟩ hexists⟩
  asked rows hperm collection skipped := by
    refine map_find?_perm hperm ?_
    intro row hrow other hother hp hq
    obtain ⟨hp, -⟩ := Bool.and_eq_true_iff.mp hp
    obtain ⟨hq, -⟩ := Bool.and_eq_true_iff.mp hq
    obtain ⟨hsame, hpos⟩ : row.collection = collection ∧ 0 < row.dimensions := by simpa using hp
    obtain ⟨hosame, hopos⟩ : other.collection = collection ∧ 0 < other.dimensions := by simpa using hq
    exact h.rows_uniform hrow hother (hsame.trans hosame.symm) hpos hopos
  refused rows hperm collection query limit least withEmbeddings expected actual := by
    have hvectors : (vectorsOf { t with records := rows } collection).Perm (vectorsOf t collection) :=
      (hperm.filter _).map _
    rw [← commonLength_perm hvectors]
    exact (h.reorder hperm).nearest_refused_iff collection query limit least withEmbeddings expected actual

end Agrees

end Memory

/-! ### Reached states -/

namespace StoreLocation

open Memory

/-- What is kept by the store at a place. -/
def Regular : (location : StoreLocation) → location.State → Prop
  | .volatile, v => Volatile.Regular v
  | .privateTables, d => ∃ t, d = Database.mk (some t) ∧ RegularTables t
  | .file _, d => ∃ t, d = Database.mk (some t) ∧ RegularTables t

variable {location : StoreLocation} {s : location.State}

theorem Mirrors.regular {v : Volatile} (h : location.Mirrors v s) : location.Regular s := by
  cases location with
  | volatile =>
    obtain ⟨rfl, hkept⟩ := h
    exact hkept.regular
  | privateTables | file _ =>
    obtain ⟨t, rfl, hagrees⟩ := h
    exact ⟨t, rfl, hagrees.regular⟩

/-- **Every state that is reached** is regular, whatever steps the clients took and whichever of them failed. -/
theorem reached_regular (h : location.Reached s) : location.Regular s := by
  obtain ⟨v, hmirrors⟩ := h.mirrors
  exact hmirrors.regular

/-- A collection whose vectors change their length: one is refused, the other is emptied, and then both are filled
anew. -/
def refillingCalls : List Call :=
  let note : Record := { metadata := { id := "a", text := "one" }, embedding := [⟨1⟩, ⟨2⟩] }
  let other : Record := { metadata := { id := "b", text := "two" }, embedding := [⟨1⟩, ⟨2⟩, ⟨3⟩] }
  [.create "notes", .upsert "notes" note, .upsert "notes" other, .upsert "notes" { note with embedding := [] },
    .upsert "notes" other, .upsert "notes" { note with embedding := [⟨4⟩, ⟨5⟩, ⟨6⟩] }, .remove "notes" "b",
    .delete "archive"]

theorem reached_regular_refilled :
    (volatile.Reached (volatile.after refillingCalls) ∧ volatile.Regular (volatile.after refillingCalls)) ∧
      privateTables.Reached (privateTables.after refillingCalls) ∧
        privateTables.Regular (privateTables.after refillingCalls) := by
  have hvolatile : volatile.Reached (volatile.after refillingCalls) := reached_after (by decide)
  have htables : privateTables.Reached (privateTables.after refillingCalls) := reached_after (by decide)
  exact ⟨⟨hvolatile, reached_regular hvolatile⟩, htables, reached_regular htables⟩

end StoreLocation

end Orchestration
