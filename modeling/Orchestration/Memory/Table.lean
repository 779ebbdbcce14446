import Orchestration.Database.Tables
import Orchestration.Json.Printer
import Orchestration.Memory.Bytes
import Orchestration.Memory.Call
import Orchestration.Memory.Similarity
import Orchestration.Text.Blank

/-!
# The store in database tables

A store whose records are rows: metadata as a document, the vector as bytes with its length beside it,
the time as text. A call changes all rows that it should, or none.

* `Tables.answer` — the answer to a call and the tables after it.
* `distance` — how far two vectors are apart, in single precision from the left.
-/

namespace Orchestration.Memory

open Number Text Time

/-- A record as a row of a collection. -/
def rowOf (collection : String) (record : Record) : MemoryRow where
  collection
  key := record.effectiveKey
  metadata := record.metadata.toJson.compact
  embedding := encodeVector record.embedding
  dimensions := record.embedding.length
  timestamp := record.timestamp.map (·.stored)

/-- The record that a row holds. A time that cannot be read is no time. -/
def recordOf (withEmbedding : Bool) (row : MemoryRow) : Except MemoryError Record :=
  match Metadata.decoder.read? row.metadata with
  | none => .error (.serialization "stored metadata cannot be read")
  | some metadata => .ok {
      metadata
      embedding := if withEmbedding then decodeVector row.embedding else []
      key := row.key
      timestamp := (row.timestamp.bind Zoned.readStrict?).map (·.instant) }

/-- Whether a row is filed under a collection and a key. -/
def isAt (collection key : String) (row : MemoryRow) : Bool :=
  row.collection = collection && row.key = key

/-- The length of some vector of a collection that is not empty; `skipped` is a key to pass over. -/
def storedDimensions? (t : Tables) (collection : String) (skipped : Option String) : Option Nat :=
  (t.records.find? fun row =>
    row.collection = collection && 0 < row.dimensions && skipped ≠ some row.key).map (·.dimensions)

/-- Tables with a row put in the place of the one with its collection and key, if there is one. -/
def replaceRow (t : Tables) (row : MemoryRow) : Tables :=
  { t with records := t.records.filter (!isAt row.collection row.key ·) ++ [row] }

/-- Tables without the row of a collection and key. -/
def removeRow (t : Tables) (collection key : String) : Tables :=
  { t with records := t.records.filter (!isAt collection key ·) }

/-- Files a record in a collection that is there. -/
def insertRecord (t : Tables) (collection : String) (record : Record) :
    Except MemoryError (String × Tables) :=
  let key := record.effectiveKey
  let length := record.embedding.length
  match storedDimensions? t collection (some key) with
  | some expected =>
    if length = 0 ∨ length = expected then .ok (key, replaceRow t (rowOf collection record))
    else .error (.dimensionMismatch expected length)
  | none => .ok (key, replaceRow t (rowOf collection record))

/-- Files records in order; the keys and the tables at the end. -/
def insertRecords (t : Tables) (collection : String) :
    List Record → Except MemoryError (List String × Tables)
  | [] => .ok ([], t)
  | record :: records => do
    let (key, t) ← insertRecord t collection record
    let (keys, t) ← insertRecords t collection records
    return (key :: keys, t)

/-- The record under a collection and key. -/
def selectRecord (t : Tables) (collection key : String) (withEmbedding : Bool) :
    Except MemoryError (Option Record) :=
  match t.records.find? (isAt collection key) with
  | none => .ok none
  | some row => (recordOf withEmbedding row).map some

/-- How far two vectors are apart: one less the cosine of the angle between them. The sums are kept in
single precision. -/
def distance (a b : Vector) : Single :=
  let (dot, left, right) := (a.zip b).foldl
    (fun (dot, left, right) (x, y) => (dot + x * y, left + x * x, right + y * y))
    (Single.zero, Single.zero, Single.zero)
  .ofDouble (1 - dot.toDouble / (left.toDouble.sqrt * right.toDouble.sqrt))

/-- The relevance of a stored vector to a query; zero where the distance is undefined. -/
def relevanceOf (stored query : Vector) : Float :=
  let relevance := 1 - (distance stored query).toDouble
  if relevance.isNaN then 0 else relevance

/-- Whether one scored row comes before another, or at the same place: by falling relevance, then by
key. -/
def rowPrecedes (a b : MemoryRow × Float) : Bool :=
  if b.2 < a.2 then true
  else if a.2 < b.2 then false
  else a.1.key ≤ b.1.key

/-- The first rows of a list; a count beyond 63 bits sets no limit. -/
def limitRows {α : Type} (limit : Nat) (rows : List α) : List α :=
  if limit < twoTo 63 then rows.take limit else rows

/-- Of scored rows the first `limit`, best first, as far as they have at least the given relevance. -/
def closestRows (limit : Nat) (least : Float) (scored : List (MemoryRow × Float)) :
    List (MemoryRow × Float) :=
  (limitRows limit (scored.mergeSort rowPrecedes)).filter fun s => !(s.2 < least)

/-- The records closest to a vector. -/
def nearestRows (t : Tables) (collection : String) (query : Vector) (limit : Nat) (least : Float)
    (withEmbeddings : Bool) : Except MemoryError (List Scored) :=
  if limit = 0 ∨ query = [] then .ok []
  else
    match storedDimensions? t collection none with
    | some expected =>
      if expected ≠ query.length then .error (.dimensionMismatch expected query.length)
      else
        let rows := t.records.filter fun row =>
          row.collection = collection && row.dimensions = query.length
        let scored := rows.map fun row => (row, relevanceOf (decodeVector row.embedding) query)
        (closestRows limit least scored).mapM fun s => do
          return ⟨← recordOf withEmbeddings s.1, s.2⟩
    | none => .ok []

/-- The tables' side of a call to a collection that must be there. -/
def inCollection {α : Type} (t : Tables) (collection : String)
    (f : Except MemoryError α) : Except MemoryError α :=
  if t.collections.contains collection then f else .error (.collectionNotFound collection)

/-- A change of the tables as a whole: it happens, or the tables stay as they are. -/
def changed {α : Type} (t : Tables) : Except MemoryError (α × Tables) → Except MemoryError α × Tables
  | .ok (value, t) => (.ok value, t)
  | .error e => (.error e, t)

/-- The answer to a call, and the tables after it. -/
def answerFromTables (t : Tables) : (call : Call) → Except MemoryError call.Answer × Tables
  | .create collection =>
    if isBlankText collection then (.error (.invalidCollectionName collection), t)
    else (.ok (), { t with collections := t.collections.insert collection () })
  | .collections => (.ok t.collections.names, t)
  | .delete collection =>
    if t.collections.contains collection then
      (.ok (), { t with
        collections := t.collections.erase collection
        records := t.records.filter (·.collection ≠ collection) })
    else (.error (.collectionNotFound collection), t)
  | .holds collection => (.ok (t.collections.contains collection), t)
  | .upsert collection record =>
    changed t (inCollection t collection (insertRecord t collection record))
  | .upsertBatch collection records =>
    changed t (inCollection t collection (insertRecords t collection records))
  | .get collection key withEmbedding => (selectRecord t collection key withEmbedding, t)
  | .getBatch collection keys withEmbeddings =>
    ((keys.mapM (selectRecord t collection · withEmbeddings)).map (·.filterMap id), t)
  | .remove collection key => (.ok (), removeRow t collection key)
  | .removeBatch collection keys => (.ok (), keys.foldl (removeRow · collection) t)
  | .nearest collection query limit least withEmbeddings =>
    (inCollection t collection (nearestRows t collection query limit least withEmbeddings), t)

/-- The answer of a database to a call, and the database after it. -/
def answerFromDatabase (d : Database) (call : Call) : Except MemoryError call.Answer × Database :=
  match d.tables with
  | none => (.error (.storage (.failed "no such table")), d)
  | some t =>
    let (answer, t) := answerFromTables t call
    (answer, ⟨some t⟩)

end Orchestration.Memory
