import Orchestration.Http.Url
import Orchestration.Json.Printer
import Orchestration.Memory.PointId
import Orchestration.Memory.Store
import Orchestration.Text.Blank

/-!
# Stores behind the network

A vector server that keeps records as points and is spoken to in documents. It knows collections by their
names in its address, so a name that would change the meaning of an address is refused.

* Vectors all have the one length that the store was set up with.
* A point carries the key and the metadata of its record; a point without them is passed over.
-/

namespace Orchestration.Memory

open Number Http Text

/-- A vector server. -/
structure RemoteStore where
  /-- its address, without slashes at its end -/
  baseUrl : String
  /-- its key -/
  apiKey : Option String
  /-- the length of the vectors -/
  vectorSize : Nat

namespace RemoteStore

/-- The server at an address. -/
def atAddress (address : String) (apiKey : Option String) (vectorSize : Nat) : RemoteStore where
  baseUrl := withoutEndSlashes address
  apiKey
  vectorSize

/-! ### Names -/

/-- Whether no name may hold a character. -/
def isUnsafe (c : Char) : Bool := "/\\?#%".toList.contains c || isBlank c || isControl c

/-- Whether a collection may have a name. -/
def isCollectionName (name : String) : Bool :=
  !isBlankText name && name ≠ "." && name ≠ ".." && !name.toList.any isUnsafe

/-- The path of something that belongs to a collection. -/
def collectionPath (name rest : String) : Except MemoryError String :=
  if isCollectionName name then .ok s!"/collections/{name}{rest}"
  else .error (.invalidCollectionName name)

/-! ### Points -/

/-- A vector in a document. -/
def vectorJson (v : Vector) : Json := .array (v.map fun x => .ofFloat x.toDouble)

/-- What a point carries besides its vector. -/
def payloadJson (r : Record) : Json :=
  .ofFields <| [("key", .string r.effectiveKey)] ++ r.metadata.jsonFields ++
    match r.timestamp with
    | some t => [("timestamp", .string t.document)]
    | none => []

/-- The point of a record. -/
def pointJson (r : Record) : Json := .ofFields [
  ("id", .string (pointId r.effectiveKey)),
  ("vector", vectorJson r.embedding),
  ("payload", payloadJson r)]

/-- What a point carries: the record without its vector. -/
def payloadFields (f : Decoder.Fields) : Option Record := do
  return {
    metadata := ← Metadata.ofFields f
    key := ← f.required "key" .string
    timestamp := ← f.withDefault "timestamp" none (.option Record.timestampDecoder) }

/-- Whether all fields could stand in a document, those that are passed over too. -/
def areReadable (depth : Nat) (fields : List (Option String × Source)) : Bool :=
  match Source.enter? depth with
  | some depth => fields.all fun f => f.1.isSome && (f.2.toJson? depth).isSome
  | none => false

/-- Reads what a point carries; it is given by names. -/
def payloadDecoder : Decoder Record
  | depth, .object fields =>
    if areReadable depth fields then
      Decoder.record (["key", "timestamp"] ++ Metadata.fieldNames) payloadFields depth (.object fields)
    else none
  | _, _ => none

/-- A point that comes back. -/
structure Point where
  /-- what it carries -/
  payload : Option Record
  /-- its vector -/
  vector : Option Vector
  /-- how close it is -/
  score : Float := 0

/-- The record of a point, if it carries one. -/
def Point.record? (p : Point) : Option Record :=
  p.payload.map fun r => { r with embedding := p.vector.getD [] }

/-- Reads a point. -/
def pointDecoder : Decoder Point := .record ["payload", "vector"] fun f => do
  return {
    payload := ← f.optional "payload" payloadDecoder
    vector := ← f.withDefault "vector" none (.option (.list .single)) }

/-- Reads a point with its closeness. -/
def scoredDecoder : Decoder Point := .record ["score", "payload", "vector"] fun f => do
  return {
    score := ← f.required "score" .float
    payload := ← f.optional "payload" payloadDecoder
    vector := ← f.withDefault "vector" none (.option (.list .single)) }

/-- Reads the names of collections. -/
def collectionsDecoder : Decoder (List String) := .record ["collections"] fun f =>
  f.required "collections" (.list (.record ["name"] fun f => f.required "name" .string))

/-! ### Requests -/

variable (s : RemoteStore)

/-- A request to a path of the server. -/
def requestTo (method path : String) (body : Option Json) : Request where
  method
  url := s.baseUrl ++ path
  headers :=
    (match s.apiKey with
      | some key => [("api-key", key)]
      | none => []) ++
    if body.isSome then [("content-type", "application/json")] else []
  body := body.map (·.compact)

/-- What comes back from a path of the server. -/
def exchange (method path : String) (body : Option Json) : Effect MemoryError Response := do
  match ← Effect.ask (.exchange (s.requestTo method path body)) with
  | .error detail => throw (.http detail)
  | .ok response => return response

/-- The failure that a response stands for. -/
def refusal (r : Response) : MemoryError := .service r.status r.body

/-- The result in the answer to a request. -/
def send {α : Type} (method path : String) (body : Option Json) (decode : Decoder α) :
    Effect MemoryError α := do
  let response ← s.exchange method path body
  if response.isSuccess then
    match (Decoder.record ["result"] fun f => f.required "result" decode).read? response.body with
    | some value => return value
    | none => throw (.http "error decoding response body")
  else throw (refusal response)

/-- Whether a collection is there. -/
def holds (collection : String) : Effect MemoryError Bool := do
  let path ← Effect.ofExcept (collectionPath collection "")
  let response ← s.exchange "GET" path none
  if response.isSuccess then return true
  else if response.status = 404 then return false
  else throw (refusal response)

/-- A collection that has to be there. -/
def require (collection : String) : Effect MemoryError Unit := do
  if !(← s.holds collection) then throw (.collectionNotFound collection)

/-- A vector that has to have the length of all. -/
def checkLength (v : Vector) : Effect MemoryError Unit := do
  if v.length ≠ s.vectorSize then throw (.dimensionMismatch s.vectorSize v.length)

/-- Makes a collection that is missing. -/
def create (collection : String) : Effect MemoryError Unit := do
  let path ← Effect.ofExcept (collectionPath collection "")
  if !(← s.holds collection) then
    let vectors : Json := .ofFields [("size", .ofNat s.vectorSize), ("distance", .string "Cosine")]
    let _ ← s.send "PUT" path (some (.ofFields [("vectors", vectors)])) .json

/-- Takes a collection away. -/
def delete (collection : String) : Effect MemoryError Unit := do
  let path ← Effect.ofExcept (collectionPath collection "")
  s.require collection
  let _ ← s.send "DELETE" path none .json

/-- The names of all collections, in order. -/
def collections : Effect MemoryError (List String) := do
  let names ← s.send "GET" "/collections" none collectionsDecoder
  return names.mergeSort fun a b => a ≤ b

/-- Files records under their keys. -/
def upsertAll (collection : String) (records : List Record) : Effect MemoryError (List String) := do
  s.require collection
  records.forM fun r => s.checkLength r.embedding
  let path ← Effect.ofExcept (collectionPath collection "/points?wait=true")
  let _ ← s.send "PUT" path (some (.ofFields [("points", .array (records.map pointJson))])) .json
  return records.map (·.effectiveKey)

/-- The records under those of the keys that have one. -/
def getAll (collection : String) (keys : List String) (withVectors : Bool) :
    Effect MemoryError (List Record) := do
  if !(← s.holds collection) then return []
  let path ← Effect.ofExcept (collectionPath collection "/points")
  let body : Json := .ofFields [
    ("ids", .ofStrings (keys.map pointId)),
    ("with_payload", .bool true),
    ("with_vector", .bool withVectors)]
  let points ← s.send "POST" path (some body) (.list pointDecoder)
  return points.filterMap (·.record?)

/-- Takes the records under the keys away. -/
def removeAll (collection : String) (keys : List String) : Effect MemoryError Unit := do
  if ← s.holds collection then
    let path ← Effect.ofExcept (collectionPath collection "/points/delete?wait=true")
    let _ ← s.send "POST" path (some (.ofFields [("points", .ofStrings (keys.map pointId))])) .json

/-- The records closest to a vector, as the server ranks them. -/
def nearest (collection : String) (embedding : Vector) (limit : Nat) (least : Float)
    (withVectors : Bool) : Effect MemoryError (List Scored) := do
  s.require collection
  if limit = 0 then return []
  s.checkLength embedding
  let path ← Effect.ofExcept (collectionPath collection "/points/search")
  let body : Json := .ofFields [
    ("vector", vectorJson embedding),
    ("limit", .ofNat limit),
    ("with_payload", .bool true),
    ("with_vector", .bool withVectors),
    ("score_threshold", .ofFloat least)]
  let points ← s.send "POST" path (some body) (.list scoredDecoder)
  return (points.filter fun p => least ≤ p.score).filterMap fun p =>
    p.record?.map fun r => ⟨r, p.score⟩

/-- The answer to a call. -/
def answer : (c : Call) → Effect MemoryError c.Answer
  | .create collection => s.create collection
  | .collections => s.collections
  | .delete collection => s.delete collection
  | .holds collection => s.holds collection
  | .upsert collection record => do
    let _ ← s.upsertAll collection [record]
    return record.effectiveKey
  | .upsertBatch collection records => s.upsertAll collection records
  | .get collection key withEmbedding => do
    return (← s.getAll collection [key] withEmbedding).getLast?
  | .getBatch collection keys withEmbeddings => s.getAll collection keys withEmbeddings
  | .remove collection key => s.removeAll collection [key]
  | .removeBatch collection keys => s.removeAll collection keys
  | .nearest collection embedding limit least withEmbeddings =>
    s.nearest collection embedding limit least withEmbeddings

/-- The server as a store. -/
def store : Store where
  call := s.answer

end RemoteStore

end Orchestration.Memory
