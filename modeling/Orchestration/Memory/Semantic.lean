import Orchestration.Ai.Services
import Orchestration.Memory.Store

/-!
# Semantic memory

A store together with a model that turns texts into vectors: texts are saved under keys and found again
by what they mean.

* A save makes the vector first, then the collection if it is missing, then files the record.
* Reading from a collection that is not there finds nothing, and makes nothing.
-/

namespace Orchestration.Memory

open Number

/-- What a search or a look-up finds. -/
structure Found where
  /-- what was saved -/
  metadata : Metadata
  /-- how close it is to the query; one for a look-up -/
  relevance : Float
  /-- its vector, if it was asked for and is not empty -/
  embedding : Option Vector

namespace Found

/-- A record as something found. -/
def ofRecord (record : Record) (relevance : Float) : Found where
  metadata := record.metadata
  relevance
  embedding := if record.embedding.isEmpty then none else some record.embedding

/-- The fields of something found, as they are written in documents. -/
def jsonFields (f : Found) : List (String × Json) :=
  f.metadata.jsonFields ++ [("relevance", .ofFloat f.relevance)] ++
    match f.embedding with
    | some v => [("embedding", .array (v.map fun x => .number (.single x)))]
    | none => []

/-- Something found, as a document. -/
def toJson (f : Found) : Json := .object f.jsonFields

end Found

/-- A store and a model that makes its vectors. -/
structure Semantic where
  /-- where the records are kept -/
  store : Store
  /-- what makes the vectors -/
  embedder : Embedder

namespace Semantic

variable (m : Semantic)

/-- The vector of a text. -/
def vectorOf (text : String) : Effect MemoryError Vector :=
  (m.embedder.embedOne text).mapError fun e => .embedding e.message

/-- Whether a collection is there. -/
def holds (collection : String) : Effect MemoryError Bool := m.store.call (.holds collection)

/-- Makes a collection that is missing. -/
def ensure (collection : String) : Effect MemoryError Unit := do
  if !(← m.holds collection) then
    let _ ← m.store.call (.create collection)

/-- Files a record, in a new collection if need be; the key it is filed under. -/
def file (collection : String) (record : Record) : Effect MemoryError String := do
  m.ensure collection
  m.store.call (.upsert collection record)

/-- Saves a text under an id. -/
def save (collection text id : String) (description additionalMetadata : Option String) :
    Effect MemoryError String := do
  let embedding ← m.vectorOf text
  let now ← Effect.ask .now
  m.file collection (.ofText id text description additionalMetadata embedding (some now))

/-- Saves where a text is kept; the text itself is not kept. -/
def saveReference (collection text id sourceName : String)
    (description additionalMetadata : Option String) : Effect MemoryError String := do
  let embedding ← m.vectorOf text
  let now ← Effect.ask .now
  m.file collection
    (.ofReference id sourceName description additionalMetadata embedding (some now))

/-- What is saved under a key. -/
def get (collection key : String) (withEmbedding : Bool) : Effect MemoryError (Option Found) := do
  if ← m.holds collection then
    let record ← m.store.call (.get collection key withEmbedding)
    return Option.map (Found.ofRecord · 1) record
  else return none

/-- Takes away what is saved under a key. -/
def remove (collection key : String) : Effect MemoryError Unit := do
  if ← m.holds collection then m.store.call (.remove collection key)

/-- What is closest to a query, best first. -/
def search (collection query : String) (limit : Nat) (least : Float) (withEmbeddings : Bool) :
    Effect MemoryError (List Found) := do
  if limit = 0 then return []
  if ← m.holds collection then
    let vector ← m.vectorOf query
    let found ← m.store.call (.nearest collection vector limit least withEmbeddings)
    return List.map (fun s => Found.ofRecord s.record s.relevance) found
  else return []

/-- The names of all collections. -/
def collections : Effect MemoryError (List String) := m.store.call .collections

end Semantic

end Orchestration.Memory
