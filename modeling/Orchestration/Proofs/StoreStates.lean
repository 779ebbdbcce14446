import Orchestration.Outside
import Orchestration.Proofs.StoreAgreement

/-!
# States of the stores

What a store of this process can come to hold. Its clients take turns with the steps of their calls; which
client takes a step makes no difference to the store, so a state is reached by a list of steps.

* `StoreLocation.respond` — the answer of the store at a place, and what it holds after it.
* `StoreLocation.Reached` — the states that are reached from an empty store, whoever takes the steps.
* `StoreLocation.Mirrors` — a store holds what a volatile store holds. Steps keep it so: `Mirrors.respond` for
  calls that are answered alike, `Reached.mirrors` for all of them.
* `StoreLocation.look` — what is found under a collection and a key.
-/

namespace Orchestration

namespace Memory

/-! ### Volatile stores -/

namespace Volatile

variable {v : Volatile} {collection : String} {record : Record}

/-- **A record is filed** in a collection that is there if its vector fits; otherwise nothing changes. -/
theorem upsert_cases (v : Volatile) (collection : String) (record : Record) :
    (v.collections.get? collection = none ∧
      v.upsert collection record = (.error (.collectionNotFound collection), v)) ∨
    (∃ records expected, v.collections.get? collection = some records ∧
      dimensions? records record.effectiveKey = some expected ∧
      v.upsert collection record =
        (.error (.dimensionMismatch expected record.embedding.length), v)) ∨
    ∃ records, v.collections.get? collection = some records ∧
      Fits (dimensions? records record.effectiveKey) record ∧
      v.upsert collection record = (.ok record.effectiveKey,
        ⟨v.collections.insert collection (records.insert record.effectiveKey record.filed)⟩) := by
  rw [upsert]
  cases hcollection : v.collections.get? collection with
  | none => exact .inl ⟨rfl, rfl⟩
  | some records =>
    rcases file_cases records record with ⟨hfits, hfile⟩ | ⟨expected, hdimensions, -, hfile⟩
    · refine .inr (.inr ⟨records, rfl, hfits, ?_⟩)
      simp only [hfile]
    · refine .inr (.inl ⟨records, expected, rfl, hdimensions, ?_⟩)
      simp only [hfile]

theorem contains_upsert (v : Volatile) (collection : String) (record : Record) (other : String) :
    (v.upsert collection record).2.collections.contains other = v.collections.contains other := by
  rcases upsert_cases v collection record with
    ⟨-, hanswer⟩ | ⟨records, expected, -, -, hanswer⟩ | ⟨records, hcollection, -, hanswer⟩
  · rw [hanswer]
  · rw [hanswer]
  · rw [hanswer]
    exact Dictionary.contains_insert_of_contains (Dictionary.contains_of_get? hcollection) other _

theorem upsert_key {record : Record} {key : String} (h : (v.upsert collection record).1 = .ok key) :
    key = record.effectiveKey := by
  rcases upsert_cases v collection record with
    ⟨-, hanswer⟩ | ⟨records, expected, -, -, hanswer⟩ | ⟨records, -, -, hanswer⟩
  · rw [hanswer] at h
    cases h
  · rw [hanswer] at h
    cases h
  · rw [hanswer] at h
    exact (Except.ok.inj h).symm

/-- A collection that is not found is missing, and where one is missing it is not found. -/
theorem upsert_collectionNotFound_iff (v : Volatile) (collection : String) (record : Record) (name : String) :
    (v.upsert collection record).1 = .error (.collectionNotFound name) ↔
      name = collection ∧ v.collections.contains collection = false := by
  rcases upsert_cases v collection record with
    ⟨hcollection, hanswer⟩ | ⟨records, expected, hcollection, -, hanswer⟩ | ⟨records, hcollection, -, hanswer⟩
  · rw [hanswer, Dictionary.contains, hcollection]
    constructor
    · intro h
      exact ⟨(MemoryError.collectionNotFound.inj (Except.error.inj h)).symm, rfl⟩
    · rintro ⟨rfl, -⟩
      rfl
  · rw [hanswer, Dictionary.contains_of_get? hcollection]
    constructor
    · intro h
      cases h
    · rintro ⟨-, h⟩
      cases h
  · rw [hanswer, Dictionary.contains_of_get? hcollection]
    constructor
    · intro h
      cases h
    · rintro ⟨-, h⟩
      cases h

/-- A collection that a record is filed in is there. -/
theorem contains_of_upsert {record : Record} {key : String} (h : (v.upsert collection record).1 = .ok key) :
    v.collections.contains collection = true := by
  cases hmissing : v.collections.contains collection with
  | true => rfl
  | false =>
    cases h.symm.trans ((upsert_collectionNotFound_iff v collection record collection).mpr ⟨rfl, hmissing⟩)

/-- A record that is filed is held at its place, and the others stay where they are. -/
theorem held_upsert {record : Record} {key : String} (h : (v.upsert collection record).1 = .ok key)
    (other name : String) :
    (v.upsert collection record).2.held other name =
      if other = collection ∧ name = key then some record.filed else v.held other name := by
  obtain rfl := upsert_key h
  rcases upsert_cases v collection record with
    ⟨-, hanswer⟩ | ⟨records, expected, -, -, hanswer⟩ | ⟨records, hcollection, -, hanswer⟩
  · rw [hanswer] at h
    cases h
  · rw [hanswer] at h
    cases h
  · rw [hanswer]
    exact held_file hcollection record other name

/-- A store that refuses a record stays as it was. -/
theorem upsert_of_error {record : Record} {e : MemoryError} (h : (v.upsert collection record).1 = .error e) :
    (v.upsert collection record).2 = v := by
  rcases upsert_cases v collection record with
    ⟨-, hanswer⟩ | ⟨records, expected, -, -, hanswer⟩ | ⟨records, -, -, hanswer⟩
  · rw [hanswer]
  · rw [hanswer]
  · rw [hanswer] at h
    cases h

/-- In a collection without records every record is filed. -/
theorem upsert_of_empty (h : v.collections.get? collection = some ∅) (record : Record) :
    (v.upsert collection record).1 = .ok record.effectiveKey := by
  rcases upsert_cases v collection record with
    ⟨hcollection, -⟩ | ⟨records, expected, hcollection, hdimensions, -⟩ | ⟨records, -, -, hanswer⟩
  · cases h.symm.trans hcollection
  · obtain rfl := Option.some.inj (h.symm.trans hcollection)
    cases hdimensions
  · rw [hanswer]

/-- **A collection is made** where it is missing, and stays where it is there; a blank name is refused. -/
theorem create_cases (v : Volatile) (collection : String) :
    v.answer (.create collection) = (.error (.invalidCollectionName collection), v) ∨
    (v.collections.contains collection = true ∧ v.answer (.create collection) = (.ok (), v)) ∨
    (v.collections.get? collection = none ∧
      v.answer (.create collection) = (.ok (), ⟨v.collections.insert collection ∅⟩)) := by
  by_cases hblank : Text.isBlankText collection
  · exact .inl (if_pos hblank)
  · rw [answer, if_neg hblank]
    cases hcollection : v.collections.get? collection with
    | some records => exact .inr (.inl ⟨Dictionary.contains_of_get? hcollection, rfl⟩)
    | none => exact .inr (.inr ⟨rfl, rfl⟩)

/-- No record is lost where a collection is made. -/
theorem held_create (v : Volatile) (collection other key : String) :
    (v.answer (.create collection)).2.held other key = v.held other key := by
  rcases create_cases v collection with hanswer | ⟨-, hanswer⟩ | ⟨hcollection, hanswer⟩
  · rw [hanswer]
  · rw [hanswer]
  · rw [hanswer, held_insert]
    split
    · next hsame => rw [held, hsame, hcollection, Option.bind_none, Dictionary.get?_empty]
    · rfl

/-- A store that refuses a call stays as it was, unless the call is for a batch. -/
theorem answer_of_error {call : Call} {e : MemoryError} (hbatch : ∀ name records, call ≠ .upsertBatch name records)
    (h : (v.answer call).1 = .error e) : (v.answer call).2 = v := by
  cases call with
  | create name =>
    rcases create_cases v name with hanswer | ⟨-, hanswer⟩ | ⟨-, hanswer⟩
    · rw [hanswer]
    · rw [hanswer]
    · rw [hanswer] at h
      cases h
  | delete name =>
    rw [answer] at h ⊢
    split at h
    · cases h
    · next hmissing => rw [if_neg hmissing]
  | upsert name record => exact upsert_of_error h
  | upsertBatch name records => exact absurd rfl (hbatch name records)
  | remove name key => cases h
  | removeBatch name keys => cases h
  | _ => rfl

theorem AllKept.upsert (h : v.AllKept) (collection : String) (record : Record) :
    (v.upsert collection record).2.AllKept := by
  rcases upsert_cases v collection record with
    ⟨-, hanswer⟩ | ⟨records, expected, -, -, hanswer⟩ | ⟨records, hcollection, hfits, hanswer⟩
  · rw [hanswer]
    exact h
  · rw [hanswer]
    exact h
  · rw [hanswer]
    exact h.insert (kept_insert (h _ _ hcollection) hfits) collection

/-- A record that is refused ends the batch. -/
theorem upsertAll_cons_of_error {e : MemoryError} (h : (v.upsert collection record).1 = .error e)
    (records : List Record) :
    v.upsertAll collection (record :: records) = (.error e, (v.upsert collection record).2) := by
  rw [upsertAll]
  generalize v.upsert collection record = filed at h
  obtain ⟨_, next⟩ := filed
  obtain rfl := h
  rfl

/-- After a record that is filed come the others, in the store that it left. -/
theorem upsertAll_cons_of_ok {key : String} (h : (v.upsert collection record).1 = .ok key)
    (records : List Record) :
    v.upsertAll collection (record :: records) =
      (((v.upsert collection record).2.upsertAll collection records).1.map (key :: ·),
        ((v.upsert collection record).2.upsertAll collection records).2) := by
  rw [upsertAll]
  generalize v.upsert collection record = filed at h
  obtain ⟨_, next⟩ := filed
  obtain rfl := h
  rfl

theorem AllKept.upsertAll (h : v.AllKept) (collection : String) (records : List Record) :
    (v.upsertAll collection records).2.AllKept := by
  induction records generalizing v with
  | nil => exact h
  | cons record records ih =>
    have hrecord := h.upsert collection record
    cases hanswer : (v.upsert collection record).1 with
    | error e =>
      rw [upsertAll_cons_of_error hanswer]
      exact hrecord
    | ok key =>
      rw [upsertAll_cons_of_ok hanswer]
      exact ih hrecord

theorem AllKept.removeAll (h : v.AllKept) (collection : String) (keys : List String) :
    (keys.foldl (·.remove collection ·) v).AllKept := by
  induction keys generalizing v with
  | nil => exact h
  | cons key keys ih => exact ih (h.remove collection key)

/-- **Every call keeps** records under their own keys and vectors of one length in each collection. -/
theorem AllKept.answer (h : v.AllKept) (call : Call) : (v.answer call).2.AllKept := by
  cases call with
  | create collection =>
    rw [Volatile.answer]
    split
    · exact h
    · split
      · exact h
      · exact h.insert kept_empty collection
  | delete collection =>
    rw [Volatile.answer]
    split
    · exact h.erase collection
    · exact h
  | upsert collection record => exact h.upsert collection record
  | upsertBatch collection records => exact h.upsertAll collection records
  | remove collection key => exact h.remove collection key
  | removeBatch collection keys => exact h.removeAll collection keys
  | collections => exact h
  | holds collection => exact h
  | get collection key withEmbedding => exact h
  | getBatch collection keys withEmbeddings => exact h
  | nearest collection embedding limit least withEmbeddings => exact h

end Volatile

/-! ### Answers without records -/

/-- Whether the call is answered without records and carried out record by record in no store: all calls but
those that read records and those that file many. -/
def Call.isPlain : Call → Bool
  | .upsertBatch .. => false
  | .get .. => false
  | .getBatch .. => false
  | .nearest .. => false
  | _ => true

theorem Call.isShared_of_isPlain {call : Call} (h : call.isPlain) : call.isShared := by
  cases call <;> first | rfl | cases h

theorem Call.untimed_of_isPlain {call : Call} (h : call.isPlain) : call.untimed = id := by
  cases call <;> first | rfl | cases h

/-! ### Tables -/

/-- **A record is filed** in the tables if its vector has the length that is asked of it. -/
theorem insertRecord_cases (t : Tables) (collection : String) (record : Record) :
    (∃ expected, insertRecord t collection record =
      .error (.dimensionMismatch expected record.embedding.length)) ∨
    insertRecord t collection record =
      .ok (record.effectiveKey, replaceRow t (rowOf collection record)) := by
  rw [insertRecord]
  cases storedDimensions? t collection (some record.effectiveKey) with
  | none => exact .inr rfl
  | some expected =>
    by_cases hfits : record.embedding.length = 0 ∨ record.embedding.length = expected
    · exact .inr (if_pos hfits)
    · exact .inl ⟨expected, if_neg hfits⟩

theorem insertRecords_cons_of_error {t : Tables} {collection : String} {record : Record} {e : MemoryError}
    (h : insertRecord t collection record = .error e) (records : List Record) :
    insertRecords t collection (record :: records) = .error e := by
  rw [insertRecords, h]
  rfl

theorem insertRecords_cons_of_ok {t next : Tables} {collection key : String} {record : Record}
    (h : insertRecord t collection record = .ok (key, next)) (records : List Record) :
    insertRecords t collection (record :: records) =
      (insertRecords next collection records).map fun filed => (key :: filed.1, filed.2) := by
  rw [insertRecords, h]
  cases hrest : insertRecords next collection records <;>
    simp only [bind, Except.bind, hrest, Except.map, pure, Except.pure]

theorem changed_of_error {α : Type} {t : Tables} {outcome : Except MemoryError (α × Tables)} {e : MemoryError}
    (h : (changed t outcome).1 = .error e) : (changed t outcome).2 = t := by
  cases outcome with
  | error e => rfl
  | ok filed => cases h

/-- Tables that refuse a call stay as they were. -/
theorem answerFromTables_of_error {t : Tables} {call : Call} {e : MemoryError}
    (h : (answerFromTables t call).1 = .error e) : (answerFromTables t call).2 = t := by
  cases call with
  | create collection =>
    rw [answerFromTables] at h ⊢
    split at h
    · next hblank => rw [if_pos hblank]
    · cases h
  | delete collection =>
    rw [answerFromTables] at h ⊢
    split at h
    · cases h
    · next hmissing => rw [if_neg hmissing]
  | upsert collection record => exact changed_of_error h
  | upsertBatch collection records => exact changed_of_error h
  | remove collection key => cases h
  | removeBatch collection keys => cases h
  | _ => rfl

/-- A batch for a collection that is there is filed as a whole or not at all. -/
theorem answer_upsertBatch_present {t : Tables} {collection : String}
    (hpresent : t.collections.contains collection = true) (records : List Record) :
    answerFromTables t (.upsertBatch collection records) =
      changed t (insertRecords t collection records) :=
  congrArg (changed t) (inCollection_present hpresent _)

theorem answer_upsertBatch_absent {t : Tables} {collection : String}
    (habsent : t.collections.contains collection = false) (records : List Record) :
    answerFromTables t (.upsertBatch collection records) = (.error (.collectionNotFound collection), t) :=
  congrArg (changed t) (inCollection_absent habsent _)

namespace Agrees

variable {v : Volatile} {t : Tables}

/-- **A call without records** has the same answer from both stores. -/
theorem answer_plain (h : Agrees v t) {call : Call} (hplain : call.isPlain) :
    (answerFromTables t call).1 = (v.answer call).1 ∧
      Agrees (v.answer call).2 (answerFromTables t call).2 := by
  obtain ⟨hanswer, hagrees⟩ := answer_agrees h (Call.isShared_of_isPlain hplain)
  rw [Call.untimed_of_isPlain hplain, Except.map_id] at hanswer
  exact ⟨hanswer.symm, hagrees⟩

/-- **Records filed one after another** by a volatile store are those filed at once in the tables; where the one
store refuses a record the other refuses the batch. -/
theorem insertRecords_cases (h : Agrees v t) {collection : String}
    (hpresent : t.collections.contains collection = true) (records : List Record) :
    (∃ keys after, insertRecords t collection records = .ok (keys, after) ∧
      (v.upsertAll collection records).1 = .ok keys ∧ Agrees (v.upsertAll collection records).2 after) ∨
    ∃ e, insertRecords t collection records = .error e ∧
      (v.upsertAll collection records).1 = .error e := by
  induction records generalizing v t with
  | nil => exact .inl ⟨[], t, rfl, rfl, h⟩
  | cons record records ih =>
    obtain ⟨hanswer, hagrees⟩ := upsert_agrees h collection record
    rw [inCollection_present hpresent] at hanswer hagrees
    rcases insertRecord_cases t collection record with ⟨expected, hinsert⟩ | hinsert
    · rw [hinsert, changed] at hanswer
      rw [insertRecords_cons_of_error hinsert, Volatile.upsertAll_cons_of_error hanswer]
      exact .inr ⟨_, rfl, rfl⟩
    · rw [hinsert, changed] at hanswer hagrees
      rw [insertRecords_cons_of_ok hinsert, Volatile.upsertAll_cons_of_ok hanswer]
      rcases ih hagrees hpresent with ⟨keys, after, hrest, hkeys, hafter⟩ | ⟨e, hrest, hrefused⟩
      · rw [hrest, hkeys]
        exact .inl ⟨_, after, rfl, rfl, hafter⟩
      · rw [hrest, hrefused]
        exact .inr ⟨e, rfl, rfl⟩

/-- A batch leaves tables that agree with some volatile store, whether it is filed or refused. -/
theorem exists_upsertBatch (h : Agrees v t) (collection : String) (records : List Record) :
    ∃ after : Volatile, Agrees after (answerFromTables t (.upsertBatch collection records)).2 := by
  cases hpresent : t.collections.contains collection with
  | false =>
    rw [answer_upsertBatch_absent hpresent]
    exact ⟨v, h⟩
  | true =>
    rw [answer_upsertBatch_present hpresent]
    rcases h.insertRecords_cases hpresent records with ⟨keys, after, hrecords, -, hagrees⟩ | ⟨e, hrecords, -⟩
    · rw [hrecords]
      exact ⟨_, hagrees⟩
    · rw [hrecords]
      exact ⟨v, h⟩

end Agrees

end Memory

/-! ### Stores by place -/

open Memory

/-- How a store answers calls: the answer, and what it holds after it. -/
abbrev Memory.Responder (σ : Type) := σ → (call : Call) → Except MemoryError call.Answer × σ

namespace StoreLocation

/-- What a store at a place holds: collections, or a database. -/
def State : StoreLocation → Type
  | .volatile => Volatile
  | .privateTables => Database
  | .file _ => Database

/-- The answer of the store at a place to a call, and what it holds after it. -/
def respond : (location : StoreLocation) → Responder location.State
  | .volatile => Volatile.answer
  | .privateTables => answerFromDatabase
  | .file _ => answerFromDatabase

/-- A store that is new. -/
def fresh : (location : StoreLocation) → location.State
  | .volatile => (∅ : Volatile)
  | .privateTables => Database.fresh
  | .file _ => Database.fresh

/-- Whether a call is carried out in one step. Tables carry out each call so; a volatile store takes its lock
anew for each record or key of a batch. -/
def isAtomic : StoreLocation → Call → Bool
  | .volatile, .upsertBatch .. => false
  | .volatile, .getBatch .. => false
  | .volatile, .removeBatch .. => false
  | _, _ => true

/-- The states that a store comes to from none of its own by steps of any clients in any order, those that fail
among them. -/
inductive Reached (location : StoreLocation) : location.State → Prop where
  /-- nothing was done yet -/
  | fresh : Reached location location.fresh
  /-- some client takes a step -/
  | step {s : location.State} (before : Reached location s) (call : Call) (atomic : location.isAtomic call) :
      Reached location (location.respond s call).2

/-- What a new store holds after calls in a row. -/
def after (location : StoreLocation) (calls : List Call) : location.State :=
  calls.foldl (fun s call => (location.respond s call).2) location.fresh

theorem Reached.calls {location : StoreLocation} {s : location.State} (h : location.Reached s)
    {calls : List Call} (hatomic : ∀ call ∈ calls, location.isAtomic call) :
    location.Reached (calls.foldl (fun s call => (location.respond s call).2) s) := by
  induction calls generalizing s with
  | nil => exact h
  | cons call calls ih =>
    exact ih (h.step call (hatomic call List.mem_cons_self)) fun other hother =>
      hatomic other (List.mem_cons_of_mem _ hother)

theorem reached_after {location : StoreLocation} {calls : List Call}
    (hatomic : ∀ call ∈ calls, location.isAtomic call) : location.Reached (location.after calls) :=
  Reached.fresh.calls hatomic

/-- A record as it is found again: under its key, and in tables with the time that its text is read as. -/
def kept : StoreLocation → Record → Record
  | .volatile, record => record
  | .privateTables, record => record.retimed
  | .file _, record => record.retimed

/-- What is found under a collection and a key. -/
def look (location : StoreLocation) (s : location.State) (collection key : String) :
    Except MemoryError (Option Record) :=
  (location.respond s (.get collection key true)).1

/-- The store holds what a volatile store holds, in which records are held under their own keys and vectors have
one length in each collection. -/
def Mirrors : (location : StoreLocation) → Volatile → location.State → Prop
  | .volatile, v, s => s = v ∧ v.AllKept
  | .privateTables, v, s => ∃ t, s = ⟨some t⟩ ∧ Agrees v t
  | .file _, v, s => ∃ t, s = ⟨some t⟩ ∧ Agrees v t

variable {location : StoreLocation} {v : Volatile} {s : location.State}

namespace Mirrors

theorem fresh (location : StoreLocation) : location.Mirrors ∅ location.fresh := by
  cases location with
  | volatile => exact ⟨rfl, fun _ _ hget => by cases hget⟩
  | privateTables | file _ => exact agrees_fresh

/-- **A call without records** has one answer from all stores that hold the same. -/
theorem respond (h : location.Mirrors v s) {call : Call} (hplain : call.isPlain) :
    (location.respond s call).1 = (v.answer call).1 ∧
      location.Mirrors (v.answer call).2 (location.respond s call).2 := by
  have htables : ∀ d : Database, (∃ t, d = ⟨some t⟩ ∧ Agrees v t) →
      (answerFromDatabase d call).1 = (v.answer call).1 ∧
        ∃ t, (answerFromDatabase d call).2 = ⟨some t⟩ ∧ Agrees (v.answer call).2 t := by
    rintro _ ⟨t, rfl, hagrees⟩
    obtain ⟨hanswer, hafter⟩ := hagrees.answer_plain hplain
    exact ⟨hanswer, _, rfl, hafter⟩
  cases location with
  | volatile =>
    obtain ⟨rfl, hkept⟩ := h
    exact ⟨rfl, rfl, hkept.answer call⟩
  | privateTables | file _ => exact htables s h

/-- A store that refuses a call stays as it was, but for batches in a volatile store. -/
theorem respond_of_error (h : location.Mirrors v s) {call : Call} (hplain : call.isPlain) {e : MemoryError}
    (he : (location.respond s call).1 = .error e) : (location.respond s call).2 = s := by
  have htables : ∀ d : Database, (∃ t, d = ⟨some t⟩ ∧ Agrees v t) →
      (answerFromDatabase d call).1 = .error e → (answerFromDatabase d call).2 = d := by
    rintro _ ⟨t, rfl, -⟩ he
    exact congrArg (Database.mk ∘ some) (answerFromTables_of_error he)
  cases location with
  | volatile =>
    refine Volatile.answer_of_error ?_ he
    rintro name records rfl
    cases hplain
  | privateTables | file _ => exact htables s h he

/-- Whether a collection is there is answered by every store, and changes none. -/
theorem respond_holds (h : location.Mirrors v s) (collection : String) :
    location.respond s (.holds collection) = (.ok (v.collections.contains collection), s) := by
  have htables : ∀ d : Database, (∃ t, d = ⟨some t⟩ ∧ Agrees v t) →
      answerFromDatabase d (.holds collection) = (.ok (v.collections.contains collection), d) := by
    rintro _ ⟨t, rfl, hagrees⟩
    rw [← hagrees.collections]
    rfl
  cases location with
  | volatile =>
    obtain ⟨rfl, -⟩ := h
    rfl
  | privateTables | file _ => exact htables s h

/-- A call that reads, or that files many records at once in tables, leaves some volatile store mirrored. -/
theorem exists_step (h : location.Mirrors v s) {call : Call} (hatomic : location.isAtomic call) :
    ∃ after, location.Mirrors after (location.respond s call).2 := by
  have htables : ∀ d : Database, (∃ t, d = ⟨some t⟩ ∧ Agrees v t) →
      ∃ after t, (answerFromDatabase d call).2 = ⟨some t⟩ ∧ Agrees after t := by
    rintro _ ⟨t, rfl, hagrees⟩
    cases hplain : call.isPlain with
    | true => exact ⟨_, _, rfl, (hagrees.answer_plain hplain).2⟩
    | false =>
      cases call with
      | upsertBatch collection records =>
        obtain ⟨after, hafter⟩ := hagrees.exists_upsertBatch collection records
        exact ⟨after, _, rfl, hafter⟩
      | get collection key withEmbedding => exact ⟨v, t, rfl, hagrees⟩
      | getBatch collection keys withEmbeddings => exact ⟨v, t, rfl, hagrees⟩
      | nearest collection embedding limit least withEmbeddings => exact ⟨v, t, rfl, hagrees⟩
      | _ => cases hplain
  cases location with
  | volatile =>
    obtain ⟨rfl, hkept⟩ := h
    exact ⟨_, rfl, hkept.answer call⟩
  | privateTables | file _ => exact htables s h

/-- **What is found** is what the volatile store holds, but for the time in tables. -/
theorem respond_get (h : location.Mirrors v s) (collection key : String) (withEmbedding : Bool) :
    location.respond s (.get collection key withEmbedding) =
      (.ok ((v.held collection key).map fun record => (location.kept record).shown withEmbedding), s) := by
  have htables : ∀ d : Database, (∃ t, d = ⟨some t⟩ ∧ Agrees v t) →
      answerFromDatabase d (.get collection key withEmbedding) =
        (.ok ((v.held collection key).map fun record => record.retimed.shown withEmbedding), d) := by
    rintro _ ⟨t, rfl, hagrees⟩
    have hselect := hagrees.selectRecord_eq collection key withEmbedding
    have hshown : (v.get collection key withEmbedding).map (·.retimed) =
        (v.held collection key).map fun record => record.retimed.shown withEmbedding := by
      rw [Volatile.get, Option.map_map]
      cases withEmbedding <;> rfl
    rw [hshown] at hselect
    exact congrArg (·, (⟨some t⟩ : Database)) hselect
  cases location with
  | volatile =>
    obtain ⟨rfl, -⟩ := h
    rfl
  | privateTables | file _ => exact htables s h

theorem look_eq (h : location.Mirrors v s) (collection key : String) :
    location.look s collection key = .ok ((v.held collection key).map location.kept) := by
  rw [look, h.respond_get]
  rfl

end Mirrors

/-- **What is reached** mirrors a volatile store. -/
theorem Reached.mirrors (h : location.Reached s) : ∃ v, location.Mirrors v s := by
  induction h with
  | fresh => exact ⟨∅, .fresh location⟩
  | step before call atomic ih =>
    obtain ⟨v, hv⟩ := ih
    exact hv.exists_step atomic

end StoreLocation

end Orchestration
