import Orchestration.Proofs.VectorLengths

/-!
# Refused searches

A search in a collection that holds vectors should fail for one reason alone, that the vector which is searched for has
another length than those that are held, and it should say so. Tables keep to this for all but the empty vector, near
which they find nothing. A volatile store fails for this reason alone, but it says that the other length was expected
and the common one given.

* `StoreLocation.JudgedByLength` — how a search should go.
* `StoreLocation.Searched` — the ways that a search goes.
* `Memory.Volatile.nearest_searched`, `Memory.Agrees.nearestRows_searched` — each kind of store goes one of them.
* `StoreLocation.search_judgedByLength_iff` — when a search goes as it should, how it goes otherwise, and which stores
  fail alike.
-/

namespace Orchestration

open Memory Number

/-! ### Ways that a search goes -/

namespace StoreLocation

/-- **A search is judged by length** if it fails just where the query is not as long as the vectors that are held, and
then says that their length was expected and another one given. -/
def JudgedByLength (common : Nat) (query : Vector) (outcome : Except MemoryError (List Scored)) : Prop :=
  ∀ e, outcome = .error e ↔ query.length ≠ common ∧ e = .dimensionMismatch common query.length

/-- **The ways that a search goes** in a collection whose vectors have a common length. -/
inductive Searched (location : StoreLocation) (common : Nat) (query : Vector) :
    Except MemoryError (List Scored) → Prop where
  /-- tables refuse another length, but not that of the empty vector -/
  | refused (odds : query.length ≠ common) (tables : location ≠ .volatile) (numbers : query ≠ []) :
      Searched location common query (.error (.dimensionMismatch common query.length))
  /-- a volatile store refuses another length as well, and takes it for the one that was expected -/
  | mistaken (odds : query.length ≠ common) (inMemory : location = .volatile) :
      Searched location common query (.error (.dimensionMismatch query.length common))
  /-- tables find nothing near the empty vector -/
  | nothing (empty : query = []) (tables : location ≠ .volatile) : Searched location common query (.ok [])
  /-- the common length is searched for -/
  | found (fits : query.length = common) (records : List Scored) : Searched location common query (.ok records)

namespace Searched

variable {location : StoreLocation} {common : Nat} {query : Vector} {outcome : Except MemoryError (List Scored)}

/-- A query of the common length is searched for. -/
theorem ne_error (h : location.Searched common query outcome) (hfits : query.length = common) (e : MemoryError) :
    outcome ≠ .error e := by
  cases h with
  | refused odds => exact absurd hfits odds
  | mistaken odds => exact absurd hfits odds
  | nothing => exact nofun
  | found => exact nofun

/-- Tables judge all but the empty vector by length. -/
theorem eq_error (h : location.Searched common query outcome) (htables : location ≠ .volatile) (hnumbers : query ≠ [])
    (hodds : query.length ≠ common) : outcome = .error (.dimensionMismatch common query.length) := by
  cases h with
  | refused => rfl
  | mistaken _ inMemory => exact absurd inMemory htables
  | nothing empty => exact absurd empty hnumbers
  | found fits => exact absurd fits hodds

/-- With a reason for it, the failure is the one that is named. -/
theorem error_eq_iff {reason : Prop} (h : reason) {e named : MemoryError} :
    (.error named : Except MemoryError (List Scored)) = .error e ↔ reason ∧ e = named := by
  rw [Except.error.injEq, eq_comm]
  exact (and_iff_right h).symm

/-- A failure that names the lengths the wrong way round is another failure. -/
theorem mismatch_ne {given : Nat} (hodds : given ≠ common) :
    MemoryError.dimensionMismatch given common ≠ .dimensionMismatch common given :=
  fun h => hodds (MemoryError.dimensionMismatch.inj h).1

/-- Volatile stores, and no others, take another length for the one that was expected. -/
theorem eq_mistaken_iff (h : location.Searched common query outcome) (hodds : query.length ≠ common) :
    outcome = .error (.dimensionMismatch query.length common) ↔ location = .volatile := by
  cases h with
  | refused _ tables => exact iff_of_false (fun h => mismatch_ne hodds (Except.error.inj h).symm) tables
  | mistaken _ inMemory => exact iff_of_true rfl inMemory
  | nothing _ tables => exact iff_of_false nofun tables
  | found fits => exact absurd fits hodds

/-- Volatile stores fail for another length. -/
theorem eq_error_iff_of_volatile (h : location.Searched common query outcome) (hvolatile : location = .volatile)
    {e : MemoryError} : outcome = .error e ↔ query.length ≠ common ∧ e = .dimensionMismatch query.length common := by
  by_cases hodds : query.length = common
  · exact iff_of_false (h.ne_error hodds e) fun h => h.1 hodds
  · rw [(h.eq_mistaken_iff hodds).mpr hvolatile]
    exact error_eq_iff hodds

/-- Tables find nothing near the empty vector. -/
theorem eq_nothing (h : location.Searched common query outcome) (hcommon : 0 < common)
    (htables : location ≠ .volatile) (hempty : query = []) : outcome = .ok [] := by
  cases h with
  | refused _ _ numbers => exact absurd hempty numbers
  | mistaken _ inMemory => exact absurd inMemory htables
  | nothing => rfl
  | found fits =>
    subst hempty
    exact absurd fits (Nat.ne_of_lt hcommon)

/-- **A search is judged by length** where the query is of that length, and by tables unless it is empty. -/
theorem judgedByLength_iff (h : location.Searched common query outcome) :
    JudgedByLength common query outcome ↔ query.length = common ∨ location ≠ .volatile ∧ query ≠ [] := by
  by_cases hfits : query.length = common
  · exact iff_of_true (fun e => iff_of_false (h.ne_error hfits e) fun h => h.1 hfits) (.inl hfits)
  rw [or_iff_right hfits]
  cases h with
  | refused _ tables numbers => exact iff_of_true (fun e => error_eq_iff hfits) ⟨tables, numbers⟩
  | mistaken _ inMemory =>
    refine iff_of_false (fun hjudged => ?_) fun h => h.1 inMemory
    exact mismatch_ne hfits ((hjudged _).mp rfl).2
  | nothing empty _ =>
    refine iff_of_false (fun hjudged => ?_) fun h => h.2 empty
    cases (hjudged _).mpr ⟨hfits, rfl⟩
  | found fits _ => exact absurd fits hfits

/-- **Two stores fail alike** where the query is of the common length, so that neither fails, and otherwise if both are
volatile or neither is. -/
theorem failsAlike_iff {other : StoreLocation} {elsewhere : Except MemoryError (List Scored)}
    (h : location.Searched common query outcome) (hother : other.Searched common query elsewhere) (hcommon : 0 < common) :
    (∀ e, outcome = .error e ↔ elsewhere = .error e) ↔
      query.length = common ∨ (location = .volatile ↔ other = .volatile) := by
  by_cases hfits : query.length = common
  · exact iff_of_true (fun e => iff_of_false (h.ne_error hfits e) (hother.ne_error hfits e)) (.inl hfits)
  rw [or_iff_right hfits]
  refine ⟨fun halike => ?_, fun hboth e => ?_⟩
  · rw [← h.eq_mistaken_iff hfits, ← hother.eq_mistaken_iff hfits]
    exact halike _
  have hsame : outcome = elsewhere := by
    by_cases hvolatile : location = .volatile
    · exact ((h.eq_mistaken_iff hfits).mpr hvolatile).trans ((hother.eq_mistaken_iff hfits).mpr (hboth.mp hvolatile)).symm
    have htables : other ≠ .volatile := mt hboth.mpr hvolatile
    by_cases hempty : query = []
    · exact (h.eq_nothing hcommon hvolatile hempty).trans (hother.eq_nothing hcommon htables hempty).symm
    · exact (h.eq_error hvolatile hempty hfits).trans (hother.eq_error htables hempty hfits).symm
  rw [hsame]

end Searched

end StoreLocation

namespace Memory

open StoreLocation (Searched)

/-! ### Volatile stores -/

/-- **A search in a volatile store** fails at the first vector that it looks at if that is of another length, and
otherwise it compares them all. -/
theorem Volatile.nearest_searched {v : Volatile} {collection : String} {length : Nat}
    (hlength : CommonLength (v.vectors collection) length) {limit : Nat} (hlimit : limit ≠ 0)
    (query : Vector) (least : Float) (withEmbeddings : Bool) :
    Searched .volatile length query (v.nearest collection query limit least withEmbeddings) := by
  rw [nearest]
  rw [vectors] at hlength
  cases hcollection : v.collections.get? collection with
  | none =>
    rw [hcollection] at hlength
    obtain ⟨⟨x, hx, -⟩, -⟩ := hlength
    cases hx
  | some records =>
    rw [hcollection, Option.getD_some] at hlength
    obtain ⟨⟨x, hx, hvector⟩, hcommon⟩ := hlength
    obtain ⟨record, hrecord, rfl⟩ := List.mem_map.mp hx
    have hrecords : ∀ record ∈ records.values, record.embedding ≠ [] → record.embedding.length = length :=
      fun other hother => hcommon _ (List.mem_map_of_mem hother)
    simp only [if_neg hlimit]
    by_cases hodds : query.length = length
    · obtain ⟨scored, hscored⟩ := scores_isOk (hodds ▸ hrecords)
      rw [hscored]
      exact .found hodds _
    · rw [scores_eq_error ⟨record, hrecord, hvector⟩ hrecords (Ne.symm hodds)]
      exact .mistaken hodds rfl

/-! ### Tables -/

namespace Agrees

variable {v : Volatile} {t : Tables} {collection : String} {length : Nat}

/-- **A search through rows** finds nothing near the empty vector, and for others it looks at the length that is
noted in some row. -/
theorem nearestRows_searched (h : Agrees v t) (hlength : CommonLength (vectorsOf t collection) length) {limit : Nat}
    (hlimit : limit ≠ 0) (query : Vector) (least : Float) (withEmbeddings : Bool) {location : StoreLocation}
    (htables : location ≠ .volatile) :
    location.Searched length query (nearestRows t collection query limit least withEmbeddings) := by
  by_cases hodds : query.length = length
  · subst hodds
    obtain ⟨found, hfound⟩ := h.exists_nearestRows hlength limit least withEmbeddings
    rw [hfound]
    exact .found rfl found
  rw [nearestRows, h.storedDimensions?_eq_some_iff.mpr hlength]
  by_cases hempty : query = []
  · rw [if_pos (.inr hempty)]
    exact .nothing hempty htables
  · rw [if_neg (not_or.mpr ⟨hlimit, hempty⟩)]
    dsimp only
    rw [if_pos (Ne.symm hodds)]
    exact .refused hodds htables hempty

/-- So does the call for it, for there is a collection where there are vectors. -/
theorem nearest_searched (h : Agrees v t) (hlength : CommonLength (vectorsOf t collection) length) {limit : Nat}
    (hlimit : limit ≠ 0) (query : Vector) (least : Float) (withEmbeddings : Bool) {location : StoreLocation}
    (htables : location ≠ .volatile) :
    location.Searched length query
      (answerFromTables t (.nearest collection query limit least withEmbeddings)).1 := by
  obtain ⟨x, hx, -⟩ := hlength.1
  obtain ⟨row, hrow, rfl, -⟩ := mem_vectorsOf.mp hx
  have hanswer : (answerFromTables t (.nearest row.collection query limit least withEmbeddings)).1 =
      nearestRows t row.collection query limit least withEmbeddings :=
    inCollection_present (h.contains_of_row hrow) _
  rw [hanswer]
  exact h.nearestRows_searched hlength hlimit query least withEmbeddings htables

end Agrees

end Memory

/-! ### Stores by place -/

namespace StoreLocation

/-- The vectors of a collection. -/
def vectors : (location : StoreLocation) → location.State → String → List Vector
  | .volatile, v, collection => Volatile.vectors v collection
  | .privateTables, d, collection => (d.tables.map (vectorsOf · collection)).getD []
  | .file _, d, collection => (d.tables.map (vectorsOf · collection)).getD []

/-- The records closest to a vector, or the failure to find them. -/
def search (location : StoreLocation) (s : location.State) (collection : String) (query : Vector) (limit : Nat)
    (least : Float) (withEmbeddings : Bool) : Except MemoryError (List Scored) :=
  (location.respond s (.nearest collection query limit least withEmbeddings)).1

variable {location : StoreLocation} {s : location.State} {collection : String} {length limit : Nat}

/-- **In every state that is reached** a search goes one of these ways. -/
theorem Reached.searched (h : location.Reached s) (hlength : CommonLength (location.vectors s collection) length)
    (hlimit : limit ≠ 0) (query : Vector) (least : Float) (withEmbeddings : Bool) :
    location.Searched length query (location.search s collection query limit least withEmbeddings) := by
  obtain ⟨v, hmirrors⟩ := h.mirrors
  cases location with
  | volatile => exact Volatile.nearest_searched hlength hlimit query least withEmbeddings
  | privateTables | file _ =>
    obtain ⟨t, rfl, hagrees⟩ := hmirrors
    exact hagrees.nearest_searched hlength hlimit query least withEmbeddings nofun

/-- **A search is judged by length** in every state of a store that is reached, and whatever the query is, where the query
is of that length or tables are searched for a vector that is not empty. Tables find nothing near the empty vector. A
volatile store fails just where it should, but then it says that the length of the query was expected. So two stores
that hold vectors of one length fail alike for another length if both are volatile or neither is. -/
theorem search_judgedByLength_iff (h : location.Reached s)
    (hlength : CommonLength (location.vectors s collection) length) (hlimit : 0 < limit)
    (query : Vector) (least : Float) (withEmbeddings : Bool) :
    let outcome := location.search s collection query limit least withEmbeddings
    (JudgedByLength length query outcome ↔ query.length = length ∨ location ≠ .volatile ∧ query ≠ []) ∧
    (location ≠ .volatile → query = [] → outcome = .ok []) ∧
    (location = .volatile → ∀ e, outcome = .error e ↔
      query.length ≠ length ∧ e = .dimensionMismatch query.length length) ∧
    ∀ (other : StoreLocation) (t : other.State), other.Reached t → CommonLength (other.vectors t collection) length →
      ((∀ e, outcome = .error e ↔ other.search t collection query limit least withEmbeddings = .error e) ↔
        query.length = length ∨ (location = .volatile ↔ other = .volatile)) := by
  intro outcome
  have hsearched : location.Searched length query outcome :=
    h.searched hlength (Nat.ne_of_gt hlimit) query least withEmbeddings
  refine ⟨hsearched.judgedByLength_iff, hsearched.eq_nothing hlength.pos, fun hvolatile e =>
    hsearched.eq_error_iff_of_volatile hvolatile, fun other t ht hother => ?_⟩
  have helsewhere := ht.searched hother (Nat.ne_of_gt hlimit) query least withEmbeddings
  exact hsearched.failsAlike_iff helsewhere hlength.pos

/-- A collection with one vector of two numbers and one that is empty. -/
def twoNumberCalls : List Call :=
  [.create "notes", .upsert "notes" { metadata := { id := "a", text := "one" }, embedding := [⟨1⟩, ⟨2⟩] },
    .upsert "notes" { metadata := { id := "b", text := "two" } }]

theorem commonLength_twoNumbers {vectors : List Vector} (h : vectors = [[⟨1⟩, ⟨2⟩], []]) :
    CommonLength vectors 2 := by
  subst h
  simp [CommonLength]

theorem search_judgedByLength_iff_threeNumbers :
    let query : Vector := [⟨1⟩, ⟨2⟩, ⟨3⟩]
    (privateTables.Reached (privateTables.after twoNumberCalls) ∧
      CommonLength (privateTables.vectors (privateTables.after twoNumberCalls) "notes") 2 ∧
      JudgedByLength 2 query (privateTables.search (privateTables.after twoNumberCalls) "notes" query 1 0 false)) ∧
    volatile.Reached (volatile.after twoNumberCalls) ∧
      CommonLength (volatile.vectors (volatile.after twoNumberCalls) "notes") 2 ∧
      volatile.search (volatile.after twoNumberCalls) "notes" query 1 0 false =
        .error (.dimensionMismatch 3 2) := by
  intro query
  have htables : privateTables.Reached (privateTables.after twoNumberCalls) := reached_after (by decide)
  have hrows : CommonLength (privateTables.vectors (privateTables.after twoNumberCalls) "notes") 2 :=
    commonLength_twoNumbers (by decide +kernel)
  have hvolatile : volatile.Reached (volatile.after twoNumberCalls) := reached_after (by decide)
  have hnumbers : CommonLength (volatile.vectors (volatile.after twoNumberCalls) "notes") 2 :=
    commonLength_twoNumbers (by decide +kernel)
  obtain ⟨hjudged, -⟩ := search_judgedByLength_iff htables hrows Nat.one_pos query 0 false
  obtain ⟨-, -, hmistaken, -⟩ := search_judgedByLength_iff hvolatile hnumbers Nat.one_pos query 0 false
  exact ⟨⟨htables, hrows, hjudged.mpr (.inr ⟨nofun, nofun⟩)⟩, hvolatile, hnumbers,
    (hmistaken rfl _).mpr ⟨by decide, rfl⟩⟩

/-- A volatile store says that three numbers were expected where two are held, and tables let the empty vector pass. -/
theorem search_misjudged :
    let query : Vector := [⟨1⟩, ⟨2⟩, ⟨3⟩]
    (volatile.Reached (volatile.after twoNumberCalls) ∧
      CommonLength (volatile.vectors (volatile.after twoNumberCalls) "notes") 2 ∧
      volatile.search (volatile.after twoNumberCalls) "notes" query 1 0 false = .error (.dimensionMismatch 3 2) ∧
      ¬JudgedByLength 2 query (volatile.search (volatile.after twoNumberCalls) "notes" query 1 0 false)) ∧
    privateTables.Reached (privateTables.after twoNumberCalls) ∧
      CommonLength (privateTables.vectors (privateTables.after twoNumberCalls) "notes") 2 ∧
      privateTables.search (privateTables.after twoNumberCalls) "notes" [] 1 0 false = .ok [] ∧
      ¬JudgedByLength 2 [] (privateTables.search (privateTables.after twoNumberCalls) "notes" [] 1 0 false) := by
  intro query
  have hmistaken : volatile.search (volatile.after twoNumberCalls) "notes" query 1 0 false =
      .error (.dimensionMismatch 3 2) := by rfl
  have htables : privateTables.Reached (privateTables.after twoNumberCalls) := reached_after (by decide)
  have hrows : CommonLength (privateTables.vectors (privateTables.after twoNumberCalls) "notes") 2 :=
    commonLength_twoNumbers (by decide +kernel)
  have hpassed := (htables.searched hrows Nat.one_ne_zero [] 0 false).eq_nothing hrows.pos nofun rfl
  refine ⟨⟨reached_after (by decide), commonLength_twoNumbers (by decide +kernel), hmistaken, fun hjudged => ?_⟩,
    htables, hrows, hpassed, fun hjudged => ?_⟩
  · cases ((hjudged _).mp hmistaken).2
  · cases hpassed.symm.trans ((hjudged _).mpr ⟨by decide, rfl⟩)

end StoreLocation

end Orchestration
