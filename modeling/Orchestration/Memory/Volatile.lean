import Orchestration.Memory.Call
import Orchestration.Memory.Similarity
import Orchestration.Text.Blank

/-!
# The volatile store

A store that lives in memory: collections by name, and in each of them records by key.

* `Volatile.answer` — the answer to a call and the store after it.
* `Volatile.upsertAll` — a batch is filed record by record, and what was filed before a record that is
  refused stays.
-/

namespace Orchestration.Memory

open Text

/-- Collections of records by name and key. -/
structure Volatile where
  /-- the collections -/
  collections : Dictionary (Dictionary Record) := ∅

namespace Volatile

instance : EmptyCollection Volatile := ⟨{}⟩

/-- The length of the vectors filed under other keys, as far as they are not empty. -/
def dimensions? (records : Dictionary Record) (key : String) : Option Nat :=
  (records.entries.find? fun e => e.1 ≠ key && !e.2.embedding.isEmpty).map (·.2.embedding.length)

/-- Files a record in a collection. -/
def file (records : Dictionary Record) (record : Record) :
    Except MemoryError (Dictionary Record) :=
  let key := record.effectiveKey
  let length := record.embedding.length
  match dimensions? records key with
  | some expected =>
    if length = 0 ∨ length = expected then .ok (records.insert key { record with key })
    else .error (.dimensionMismatch expected length)
  | none => .ok (records.insert key { record with key })

/-- Files a record. -/
def upsert (store : Volatile) (collection : String) (record : Record) :
    Except MemoryError String × Volatile :=
  match store.collections.get? collection with
  | none => (.error (.collectionNotFound collection), store)
  | some records =>
    match file records record with
    | .error e => (.error e, store)
    | .ok records => (.ok record.effectiveKey, ⟨store.collections.insert collection records⟩)

/-- Files records in order, up to the first that is refused. -/
def upsertAll (store : Volatile) (collection : String) :
    List Record → Except MemoryError (List String) × Volatile
  | [] => (.ok [], store)
  | record :: records =>
    match store.upsert collection record with
    | (.error e, store) => (.error e, store)
    | (.ok key, store) =>
      let (keys, store) := store.upsertAll collection records
      (keys.map (key :: ·), store)

/-- The record under a key. -/
def get (store : Volatile) (collection key : String) (withEmbedding : Bool) : Option Record :=
  ((store.collections.get? collection).bind (·.get? key)).map (·.shown withEmbedding)

/-- Takes a record away. -/
def remove (store : Volatile) (collection key : String) : Volatile :=
  match store.collections.get? collection with
  | none => store
  | some records => ⟨store.collections.insert collection (records.erase key)⟩

/-- The records of a collection with their relevance to a vector; those without a vector are passed
over. -/
def scores (records : List Record) (query : Number.Vector) : Except MemoryError (List Scored) :=
  (records.filter (!·.embedding.isEmpty)).mapM fun record => do
    return ⟨record, ← cosine query record.embedding⟩

/-- The records closest to a vector. -/
def nearest (store : Volatile) (collection : String) (query : Number.Vector) (limit : Nat)
    (least : Float) (withEmbeddings : Bool) : Except MemoryError (List Scored) :=
  match store.collections.get? collection with
  | none => .error (.collectionNotFound collection)
  | some records =>
    if limit = 0 then .ok []
    else (scores records.values query).map fun scored =>
      (best limit least scored).map fun s => { s with record := s.record.shown withEmbeddings }

/-- The answer to a call, and the store after it. -/
def answer (store : Volatile) : (call : Call) → Except MemoryError call.Answer × Volatile
  | .create collection =>
    if isBlankText collection then (.error (.invalidCollectionName collection), store)
    else match store.collections.get? collection with
      | some _ => (.ok (), store)
      | none => (.ok (), ⟨store.collections.insert collection ∅⟩)
  | .collections => (.ok store.collections.names, store)
  | .delete collection =>
    if store.collections.contains collection then
      (.ok (), ⟨store.collections.erase collection⟩)
    else (.error (.collectionNotFound collection), store)
  | .holds collection => (.ok (store.collections.contains collection), store)
  | .upsert collection record => store.upsert collection record
  | .upsertBatch collection records => store.upsertAll collection records
  | .get collection key withEmbedding => (.ok (store.get collection key withEmbedding), store)
  | .getBatch collection keys withEmbeddings =>
    (.ok (keys.filterMap (store.get collection · withEmbeddings)), store)
  | .remove collection key => (.ok (), store.remove collection key)
  | .removeBatch collection keys => (.ok (), keys.foldl (·.remove collection ·) store)
  | .nearest collection query limit least withEmbeddings =>
    (store.nearest collection query limit least withEmbeddings, store)

end Volatile

end Orchestration.Memory
