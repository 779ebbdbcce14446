import Orchestration.Database.Operation
import Orchestration.Proofs.LayoutVersions
import Orchestration.Proofs.RecordRows
import Orchestration.Proofs.StoreContents

/-!
# Tables that agree with a volatile store

The rows of a database are the records of a volatile store. Calls keep it so, but for batches of which a part
is refused, and so a store in memory and one in tables answer alike; only the times of records may differ,
which the tables keep as texts.

* `Memory.Agrees` — the relation between the two stores.
* `Memory.Agrees.storedDimensions?_eq`, `Memory.Agrees.selectRecord_eq` — what the tables find is what the
  volatile store holds.
* `Memory.answer_agrees` — a call is answered alike, and leaves stores that agree.
* `Memory.replies_eq` — so is any list of calls.
-/

namespace Orchestration.Memory

open Number Text Time

/-! ### The relation -/

/-- The tables hold what the volatile store holds. -/
structure Agrees (v : Volatile) (t : Tables) : Prop where
  /-- records are held under their keys, with vectors of one length in each collection -/
  kept : v.AllKept
  /-- the collections are the same -/
  collections : ∀ name, t.collections.contains name = v.collections.contains name
  /-- the rows are those of the records -/
  rows : ∀ row, row ∈ t.records ↔
    ∃ record, v.held row.collection row.key = some record ∧ rowOf row.collection record = row

theorem rowOf_filed (collection : String) (record : Record) :
    rowOf collection record.filed = rowOf collection record := by
  rw [rowOf, rowOf, record.effectiveKey_filed]
  rfl

theorem isAt_iff {collection key : String} {row : MemoryRow} :
    isAt collection key row = true ↔ row.collection = collection ∧ row.key = key := by
  rw [isAt, Bool.and_eq_true_iff, decide_eq_true_iff, decide_eq_true_iff]

/-- A row that is put in takes the place of the one at its collection and key. -/
theorem mem_replaceRow {t : Tables} {row new : MemoryRow} :
    row ∈ (replaceRow t new).records ↔
      (row ∈ t.records ∧ ¬(row.collection = new.collection ∧ row.key = new.key)) ∨ row = new := by
  rw [replaceRow, List.mem_append, List.mem_filter, List.mem_singleton, Bool.not_eq_true', ← isAt_iff,
    Bool.not_eq_true]

theorem mem_removeRow {t : Tables} {row : MemoryRow} {collection key : String} :
    row ∈ (removeRow t collection key).records ↔
      row ∈ t.records ∧ ¬(row.collection = collection ∧ row.key = key) := by
  rw [removeRow, List.mem_filter, Bool.not_eq_true', ← isAt_iff, Bool.not_eq_true]

/-- The record with the time that is read from the text kept of its own. -/
def Record.retimed (record : Record) : Record :=
  { record with timestamp := ((record.timestamp.map (·.stored)).bind Zoned.readStrict?).map (·.instant) }

/-- The record without its time. -/
def Record.untimed (record : Record) : Record := { record with timestamp := none }

theorem Record.untimed_comp_retimed : Record.untimed ∘ Record.retimed = Record.untimed := rfl

/-- What a call is answered with, times left out. -/
def Call.untimed : (call : Call) → call.Answer → call.Answer
  | .get .., found => Option.map Record.untimed found
  | .getBatch .., found => List.map Record.untimed found
  | .nearest .., found => List.map (fun s : Scored => { s with record := s.record.untimed }) found
  | .create _, answer => answer
  | .collections, answer => answer
  | .delete _, answer => answer
  | .holds _, answer => answer
  | .upsert .., answer => answer
  | .upsertBatch .., answer => answer
  | .remove .., answer => answer
  | .removeBatch .., answer => answer

/-- Whether the two stores answer the call alike: all calls but two, of which one fails in part and the other
computes. -/
def Call.isShared : Call → Bool
  | .upsertBatch .. => false
  | .nearest .. => false
  | _ => true

namespace Agrees

variable {v : Volatile} {t : Tables} {collection key : String} {record : Record}

/-! ### What the tables find -/

/-- A record that is held has its row. -/
theorem row_of_held (h : Agrees v t) (hheld : v.held collection key = some record) :
    rowOf collection record ∈ t.records := by
  refine (h.rows _).mpr ⟨record, ?_, rfl⟩
  rw [rowOf_key, (h.kept.keyed hheld).2]
  exact hheld

/-- **The row found** at a place is that of the record held there. -/
theorem find?_isAt (h : Agrees v t) (collection key : String) :
    t.records.find? (isAt collection key) = (v.held collection key).map (rowOf collection) := by
  cases hfind : t.records.find? (isAt collection key) with
  | none =>
    cases hheld : v.held collection key with
    | none => rfl
    | some record =>
      -- the row of a record would have been found
      have hat : isAt collection key (rowOf collection record) = true :=
        isAt_iff.mpr ⟨rfl, (h.kept.keyed hheld).2⟩
      exact absurd hat (List.find?_eq_none.mp hfind _ (h.row_of_held hheld))
  | some row =>
    obtain ⟨rfl, rfl⟩ := isAt_iff.mp (List.find?_some hfind)
    obtain ⟨record, hheld, hrow⟩ := (h.rows row).mp (List.mem_of_find?_eq_some hfind)
    rw [hheld, Option.map_some, hrow]

/-- Rows of a collection with vectors that are not empty have vectors of one length. -/
theorem rows_uniform (h : Agrees v t) {row other : MemoryRow} (hrow : row ∈ t.records)
    (hother : other ∈ t.records) (hsame : row.collection = other.collection) (hpos : 0 < row.dimensions)
    (hopos : 0 < other.dimensions) : row.dimensions = other.dimensions := by
  obtain ⟨record, hheld, hr⟩ := (h.rows row).mp hrow
  obtain ⟨another, haheld, ha⟩ := (h.rows other).mp hother
  rw [hsame] at hheld
  obtain ⟨records, hcollection, hget⟩ := Option.bind_eq_some_iff.mp hheld
  rw [Volatile.held_of_collection hcollection] at haheld
  have hlength : row.dimensions = record.embedding.length := by rw [← hr]; rfl
  have halength : other.dimensions = another.embedding.length := by rw [← ha]; rfl
  rw [hlength, halength]
  exact (h.kept _ _ hcollection).uniform _ _ _ _ hget haheld
    (List.length_pos_iff.mp (hlength ▸ hpos)) (List.length_pos_iff.mp (halength ▸ hopos))

/-- **The length that is asked of a vector** is the same in both stores. -/
theorem storedDimensions?_eq (h : Agrees v t) {records : Dictionary Record}
    (hcollection : v.collections.get? collection = some records) (key : String) :
    storedDimensions? t collection (some key) = Volatile.dimensions? records key := by
  ext length
  rw [Volatile.dimensions?_eq_some_iff (h.kept _ _ hcollection), storedDimensions?, map_find?_eq_some_iff]
  · constructor
    · rintro ⟨row, hrow, hp, rfl⟩
      obtain ⟨⟨hcol, hpos⟩, hkey⟩ : (row.collection = collection ∧ 0 < row.dimensions) ∧ key ≠ row.key := by
        simpa using hp
      obtain ⟨record, hheld, hr⟩ := (h.rows row).mp hrow
      rw [hcol, Volatile.held_of_collection hcollection] at hheld
      have hlength : row.dimensions = record.embedding.length := by rw [← hr]; rfl
      exact ⟨row.key, record, hkey.symm, hheld, List.length_pos_iff.mp (hlength ▸ hpos), hlength.symm⟩
    · rintro ⟨other, record, hother, hget, hvector, rfl⟩
      have hheld : v.held collection other = some record :=
        (Volatile.held_of_collection hcollection).trans hget
      refine ⟨rowOf collection record, h.row_of_held hheld, ?_, rfl⟩
      have hkey : key ≠ record.effectiveKey := by
        rw [(h.kept.keyed hheld).2]
        exact hother.symm
      have hpos : 0 < record.embedding.length := List.length_pos_iff.mpr hvector
      simpa [rowOf, hpos] using hkey
  · intro row hrow other hother hp hq
    obtain ⟨⟨hcol, hpos⟩, -⟩ : (row.collection = collection ∧ 0 < row.dimensions) ∧ key ≠ row.key := by
      simpa using hp
    obtain ⟨⟨hocol, hopos⟩, -⟩ : (other.collection = collection ∧ 0 < other.dimensions) ∧ key ≠ other.key := by
      simpa using hq
    exact h.rows_uniform hrow hother (hcol.trans hocol.symm) hpos hopos

/-! ### What is changed -/

/-- A new collection has no records. -/
theorem create (h : Agrees v t) (habsent : v.collections.get? collection = none) :
    Agrees ⟨v.collections.insert collection ∅⟩
      { t with collections := t.collections.insert collection () } where
  kept := h.kept.insert kept_empty collection
  collections name := by rw [Dictionary.contains_insert, Dictionary.contains_insert, h.collections]
  rows row := by
    rw [h.rows]
    refine exists_congr fun record => ?_
    rw [Volatile.held_insert]
    split
    · next hsame => rw [hsame, Volatile.held, habsent]; rfl
    · rfl

/-- A collection that is there already stays as it is. -/
theorem recreate (h : Agrees v t) (hpresent : v.collections.contains collection = true) :
    Agrees v { t with collections := t.collections.insert collection () } where
  kept := h.kept
  collections name := by
    have hpresent' : t.collections.contains collection = true := (h.collections collection).trans hpresent
    rw [Dictionary.contains_insert_of_contains hpresent', h.collections]
  rows := h.rows

/-- With a collection go its records. -/
theorem delete (h : Agrees v t) (collection : String) :
    Agrees ⟨v.collections.erase collection⟩ { t with
      collections := t.collections.erase collection
      records := t.records.filter (·.collection ≠ collection) } where
  kept := h.kept.erase collection
  collections name := by rw [Dictionary.contains_erase, Dictionary.contains_erase, h.collections]
  rows row := by
    rw [List.mem_filter, h.rows, Volatile.held_erase]
    by_cases hsame : row.collection = collection
    · rw [if_pos hsame]
      simp [hsame]
    · rw [if_neg hsame]
      simp [hsame]

/-- A record that is filed takes the place of the one under its key. -/
theorem file (h : Agrees v t) {records : Dictionary Record}
    (hcollection : v.collections.get? collection = some records)
    (hfits : Volatile.Fits (Volatile.dimensions? records record.effectiveKey) record) :
    Agrees ⟨v.collections.insert collection (records.insert record.effectiveKey record.filed)⟩
      (replaceRow t (rowOf collection record)) where
  kept := h.kept.insert (Volatile.kept_insert (h.kept _ _ hcollection) hfits) collection
  collections name := by
    have hpresent := Dictionary.contains_of_get? hcollection
    exact (h.collections name).trans (Dictionary.contains_insert_of_contains hpresent name _).symm
  rows row := by
    rw [mem_replaceRow, h.rows, Volatile.held_file hcollection]
    by_cases hat : row.collection = collection ∧ row.key = record.effectiveKey
    · -- at the place of the record stands its row alone
      rw [if_pos hat]
      constructor
      · rintro (⟨-, hother⟩ | rfl)
        · exact absurd hat hother
        · exact ⟨record.filed, rfl, rowOf_filed collection record⟩
      · rintro ⟨another, hsome, hrow⟩
        obtain rfl := Option.some.inj hsome
        rw [rowOf_filed, hat.1] at hrow
        exact .inr hrow.symm
    · rw [if_neg hat]
      constructor
      · rintro (⟨hrow, -⟩ | rfl)
        · exact hrow
        · exact absurd ⟨rfl, rfl⟩ hat
      · exact fun hrow => .inl ⟨hrow, hat⟩

/-- A record that is taken away takes its row with it. -/
theorem remove (h : Agrees v t) (collection key : String) :
    Agrees (v.remove collection key) (removeRow t collection key) where
  kept := h.kept.remove collection key
  collections name := by rw [removeRow, Volatile.contains_remove, h.collections]
  rows row := by
    rw [mem_removeRow, h.rows, Volatile.held_remove]
    by_cases hat : row.collection = collection ∧ row.key = key
    · rw [if_pos hat]
      simp [hat]
    · rw [if_neg hat]
      exact and_iff_left hat

theorem removeAll (h : Agrees v t) (collection : String) (keys : List String) :
    Agrees (keys.foldl (·.remove collection ·) v) (keys.foldl (removeRow · collection) t) := by
  induction keys generalizing v t with
  | nil => exact h
  | cons key keys ih => exact ih (h.remove collection key)

/-! ### What is answered -/

/-- **What the tables give out** for a record is the record, but for its time. -/
theorem selectRecord_eq (h : Agrees v t) (collection key : String) (withEmbedding : Bool) :
    selectRecord t collection key withEmbedding =
      .ok ((v.get collection key withEmbedding).map (·.retimed)) := by
  rw [selectRecord, h.find?_isAt]
  have hget : v.get collection key withEmbedding =
      (v.held collection key).map (·.shown withEmbedding) := rfl
  rw [hget]
  cases hheld : v.held collection key with
  | none => rfl
  | some record =>
    obtain ⟨hkey, heffective⟩ := h.kept.keyed hheld
    simp only [Option.map_some, recordOf_rowOf, Except.map]
    rw [heffective, ← hkey]
    cases withEmbedding <;> rfl

/-- Several records are given out in the order of their keys, as far as they are there. -/
theorem getBatch_eq (h : Agrees v t) (collection : String) (keys : List String) (withEmbeddings : Bool) :
    (keys.mapM (selectRecord t collection · withEmbeddings)).map (·.filterMap id) =
      .ok ((keys.filterMap (v.get collection · withEmbeddings)).map (·.retimed)) := by
  have hselect : (selectRecord t collection · withEmbeddings) =
      fun key => pure ((v.get collection key withEmbeddings).map (·.retimed)) :=
    funext fun key => h.selectRecord_eq collection key withEmbeddings
  rw [hselect, List.mapM_pure, List.map_filterMap]
  refine congrArg Except.ok ?_
  exact List.filterMap_map

end Agrees

variable {v : Volatile} {t : Tables}

/-- A collection that is not there answers with its name. -/
theorem inCollection_absent {α : Type} {collection : String}
    (habsent : t.collections.contains collection = false) (f : Except MemoryError α) :
    inCollection t collection f = .error (.collectionNotFound collection) := by
  rw [inCollection, habsent]
  exact if_neg Bool.false_ne_true

theorem inCollection_present {α : Type} {collection : String}
    (hpresent : t.collections.contains collection = true) (f : Except MemoryError α) :
    inCollection t collection f = f := by
  rw [inCollection, hpresent]
  exact if_pos rfl

/-- **A record is filed alike**, or refused alike: the stores ask the same length of its vector. -/
theorem upsert_agrees (h : Agrees v t) (collection : String) (record : Record) :
    let stored := changed t (inCollection t collection (insertRecord t collection record))
    (v.upsert collection record).1 = stored.1 ∧ Agrees (v.upsert collection record).2 stored.2 := by
  intro stored
  rw [Volatile.upsert]
  cases hcollection : v.collections.get? collection with
  | none =>
    have habsent : t.collections.contains collection = false := by
      rw [h.collections, Dictionary.contains_of_get?_eq_none hcollection]
    have hstored : stored = (.error (.collectionNotFound collection), t) := by
      simp only [stored, inCollection_absent habsent, changed]
    rw [hstored]
    exact ⟨rfl, h⟩
  | some records =>
    have hpresent : t.collections.contains collection = true :=
      (h.collections collection).trans (Dictionary.contains_of_get? hcollection)
    have hstored : stored = changed t (insertRecord t collection record) := by
      simp only [stored, inCollection_present hpresent]
    rw [hstored, insertRecord, h.storedDimensions?_eq hcollection]
    rcases Volatile.file_cases records record with ⟨hfits, hfile⟩ | ⟨expected, hdimensions, hodds, hfile⟩
    · have hplace := h.file hcollection hfits
      cases hdimensions : Volatile.dimensions? records record.effectiveKey with
      | none =>
        simp only [hfile]
        exact ⟨rfl, hplace⟩
      | some expected =>
        simp only [hfile, if_pos (hfits expected hdimensions)]
        exact ⟨rfl, hplace⟩
    · simp only [hfile, hdimensions, if_neg hodds]
      exact ⟨rfl, h⟩

/-- A collection is made alike, unless its name is blank or it is there already. -/
theorem create_agrees (h : Agrees v t) (collection : String) :
    (v.answer (.create collection)).1 = (answerFromTables t (.create collection)).1 ∧
      Agrees (v.answer (.create collection)).2 (answerFromTables t (.create collection)).2 := by
  rw [Volatile.answer, answerFromTables]
  by_cases hblank : isBlankText collection
  · rw [if_pos hblank, if_pos hblank]
    exact ⟨rfl, h⟩
  · rw [if_neg hblank, if_neg hblank]
    cases hcollection : v.collections.get? collection with
    | none => exact ⟨rfl, h.create hcollection⟩
    | some records => exact ⟨rfl, h.recreate (Dictionary.contains_of_get? hcollection)⟩

/-- **A call is answered alike**, but for times, and leaves stores that agree. -/
theorem answer_agrees (h : Agrees v t) {call : Call} (hshared : call.isShared) :
    (v.answer call).1.map call.untimed = (answerFromTables t call).1.map call.untimed ∧
      Agrees (v.answer call).2 (answerFromTables t call).2 := by
  cases call with
  | create collection =>
    obtain ⟨hanswer, hagrees⟩ := create_agrees h collection
    exact ⟨congrArg (Except.map _) hanswer, hagrees⟩
  | collections =>
    have hnames : v.collections.names = t.collections.names :=
      (Dictionary.names_eq_of_contains h.collections).symm
    rw [Volatile.answer, answerFromTables, hnames]
    exact ⟨rfl, h⟩
  | delete collection =>
    rw [Volatile.answer, answerFromTables, h.collections]
    cases v.collections.contains collection with
    | true => exact ⟨rfl, h.delete collection⟩
    | false => exact ⟨rfl, h⟩
  | holds collection =>
    rw [Volatile.answer, answerFromTables, h.collections]
    exact ⟨rfl, h⟩
  | upsert collection record =>
    obtain ⟨hanswer, hagrees⟩ := upsert_agrees h collection record
    exact ⟨congrArg (Except.map _) hanswer, hagrees⟩
  | upsertBatch collection records => cases hshared
  | get collection key withEmbedding =>
    have hfound := congrArg (Except.map (Option.map Record.untimed))
      (h.selectRecord_eq collection key withEmbedding)
    refine ⟨Eq.trans ?_ hfound.symm, h⟩
    rw [Except.map, Option.map_map, Record.untimed_comp_retimed]
    rfl
  | getBatch collection keys withEmbeddings =>
    have hfound := congrArg (Except.map (List.map Record.untimed))
      (h.getBatch_eq collection keys withEmbeddings)
    refine ⟨Eq.trans ?_ hfound.symm, h⟩
    rw [Except.map, List.map_map, Record.untimed_comp_retimed]
    rfl
  | remove collection key => exact ⟨rfl, h.remove collection key⟩
  | removeBatch collection keys => exact ⟨rfl, h.removeAll collection keys⟩
  | nearest collection embedding limit least withEmbeddings => cases hshared

/-! ### Lists of calls -/

/-- The answers to calls in a row, each with its call and without times. -/
def replies {σ : Type} (respond : σ → (call : Call) → Except MemoryError call.Answer × σ) :
    σ → List Call → List ((call : Call) × Except MemoryError call.Answer)
  | _, [] => []
  | s, call :: calls =>
    ⟨call, (respond s call).1.map call.untimed⟩ :: replies respond (respond s call).2 calls

/-- Stores that agree answer calls in a row alike. -/
theorem replies_eq_of_agrees (h : Agrees v t) {calls : List Call} (hshared : ∀ call ∈ calls, call.isShared) :
    replies Volatile.answer v calls = replies answerFromDatabase ⟨some t⟩ calls := by
  induction calls generalizing v t with
  | nil => rfl
  | cons call calls ih =>
    obtain ⟨hanswer, hagrees⟩ := answer_agrees h (hshared call List.mem_cons_self)
    have hrest := ih hagrees fun other hother => hshared other (List.mem_cons_of_mem _ hother)
    rw [replies, replies, hanswer, hrest]
    rfl

/-- A database that is set up and brought to the present layout holds what it held. -/
theorem migrate_setUp_contents (d : Database) :
    ∃ t, d.setUp.migrate.2 = ⟨some t⟩ ∧ t.collections = (d.tables.getD {}).collections ∧
      t.records = (d.tables.getD {}).records := by
  have hnoted := Database.keeps_noteFirstVersion (d.tables.getD {})
  rw [Database.migrate]
  cases hversion : d.setUp.version with
  | error e => exact ⟨_, rfl, hnoted.collections, hnoted.records⟩
  | ok version =>
    have hkept := hnoted.trans (Database.keeps_migrateFrom version _)
    exact ⟨_, rfl, hkept.collections, hkept.records⟩

/-- Nothing is held by a new database, and nothing by a new volatile store. -/
theorem agrees_fresh : ∃ t, Database.fresh = ⟨some t⟩ ∧ Agrees ∅ t := by
  obtain ⟨t, hfresh, hcollections, hrecords⟩ := migrate_setUp_contents {}
  refine ⟨t, hfresh, ?_, ?_, ?_⟩
  · intro collection records hget
    cases hget
  · intro name
    rw [hcollections]
    rfl
  · intro row
    rw [hrecords]
    constructor
    · intro hrow
      cases hrow
    · rintro ⟨record, hheld, -⟩
      cases hheld

/-- **Both stores answer alike**: from two that are empty, any list of calls but batches of records and
searches is answered the same, with the same failures, in the same order, and but for times with the same
records. -/
theorem replies_eq (calls : List Call) (hshared : ∀ call ∈ calls, call.isShared) :
    replies Volatile.answer ∅ calls = replies answerFromDatabase .fresh calls := by
  obtain ⟨t, hfresh, hagrees⟩ := agrees_fresh
  rw [hfresh]
  exact replies_eq_of_agrees hagrees hshared

/-- All shared calls, with their failures: blank names, collections that are not there, vectors at odds, a
record in place of another of another length, keys asked for twice or not there. -/
def mixedCalls : List Call :=
  let plain : Record := { metadata := { id := "a", text := "\"one\"\n\u0001" }, embedding := [⟨1⟩, ⟨2⟩] }
  let longer : Record := { plain with embedding := [⟨1⟩, ⟨2⟩, ⟨3⟩] }
  [.create " ", .upsert "notes" plain, .create "notes", .create "notes", .holds "notes", .upsert "notes" plain,
    .upsert "notes" { longer with key := "b" }, .upsert "notes" longer,
    .upsert "notes" { plain with key := "c", embedding := [] }, .getBatch "notes" ["c", "a", "x", "a"] true,
    .get "notes" "a" false, .remove "notes" "x", .removeBatch "notes" ["a", "c", "a"], .get "notes" "a" true,
    .collections, .delete "notes", .delete "notes", .get "notes" "c" true]

theorem replies_eq_mixed :
    (∀ call ∈ mixedCalls, call.isShared) ∧
      replies Volatile.answer ∅ mixedCalls = replies answerFromDatabase .fresh mixedCalls :=
  ⟨by decide, replies_eq mixedCalls (by decide)⟩

end Orchestration.Memory
