import Orchestration.Memory.Record

/-!
# What can be asked of a store

The calls that every memory store answers, and the type of the answer to each. A store files records by
collection and key; within a collection all vectors that are not empty have one length.
-/

namespace Orchestration.Memory

open Number

/-- A call to a store. -/
inductive Call where
  /-- makes a collection, unless it is there already -/
  | create (collection : String)
  /-- the names of all collections, in order -/
  | collections
  /-- takes a collection away with all its records -/
  | delete (collection : String)
  /-- whether a collection is there -/
  | holds (collection : String)
  /-- files a record under its key, in place of the record that was there -/
  | upsert (collection : String) (record : Record)
  /-- files records in order -/
  | upsertBatch (collection : String) (records : List Record)
  /-- the record under a key -/
  | get (collection key : String) (withEmbedding : Bool)
  /-- the records under those of the keys that have one -/
  | getBatch (collection : String) (keys : List String) (withEmbeddings : Bool)
  /-- takes the record under a key away, if there is one -/
  | remove (collection key : String)
  /-- takes the records under the keys away -/
  | removeBatch (collection : String) (keys : List String)
  /-- the records closest to a vector, best first -/
  | nearest (collection : String) (embedding : Vector) (limit : Nat) (least : Float)
      (withEmbeddings : Bool)

/-- What a call is answered with when it succeeds. -/
def Call.Answer : Call → Type
  | .create _ => Unit
  | .collections => List String
  | .delete _ => Unit
  | .holds _ => Bool
  | .upsert .. => String
  | .upsertBatch .. => List String
  | .get .. => Option Record
  | .getBatch .. => List Record
  | .remove .. => Unit
  | .removeBatch .. => Unit
  | .nearest .. => List Scored

end Orchestration.Memory
