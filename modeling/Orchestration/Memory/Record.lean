import Orchestration.Json.Decode
import Orchestration.Number.Single
import Orchestration.Time.Timestamp

/-!
# Memory records

What a store keeps under a key: a vector and a description of what the vector stands for. A record
that was not given a key goes by the id of what it describes.
-/

namespace Orchestration.Memory

open Number Time

/-- What a vector stands for. -/
structure Metadata where
  /-- whether the text is kept elsewhere -/
  isReference : Bool := false
  /-- where it is kept -/
  externalSourceName : String := ""
  /-- the name of the thing described -/
  id : String := ""
  /-- a description of it -/
  description : String := ""
  /-- the text itself -/
  text : String := ""
  /-- whatever else the owner wants to keep with it -/
  additionalMetadata : String := ""
  deriving DecidableEq, Inhabited

namespace Metadata

/-- The names of the fields in documents. -/
def fieldNames : List String :=
  ["is_reference", "external_source_name", "id", "description", "text", "additional_metadata"]

/-- The fields as they are written in documents. -/
def jsonFields (m : Metadata) : List (String × Json) := [
  ("is_reference", .bool m.isReference),
  ("external_source_name", .string m.externalSourceName),
  ("id", .string m.id),
  ("description", .string m.description),
  ("text", .string m.text),
  ("additional_metadata", .string m.additionalMetadata)]

/-- The metadata as a document. -/
def toJson (m : Metadata) : Json := .object m.jsonFields

/-- Puts metadata together from the fields that were found. -/
def ofFields (f : Decoder.Fields) : Option Metadata := do
  return {
    isReference := ← f.withDefault "is_reference" false .bool
    externalSourceName := ← f.withDefault "external_source_name" "" .string
    id := ← f.withDefault "id" "" .string
    description := ← f.withDefault "description" "" .string
    text := ← f.withDefault "text" "" .string
    additionalMetadata := ← f.withDefault "additional_metadata" "" .string }

/-- Reads metadata from a document; no field need be there. -/
def decoder : Decoder Metadata := .record fieldNames ofFields

end Metadata

/-- What a store keeps under a key. -/
structure Record where
  /-- what the vector stands for -/
  metadata : Metadata
  /-- the vector; empty when there is none -/
  embedding : Vector := []
  /-- the key, if it is not the id -/
  key : String := ""
  /-- when the record was made -/
  timestamp : Option Timestamp := none
  deriving DecidableEq, Inhabited

namespace Record

/-- A record of a text that is kept with it. -/
def ofText (id text : String) (description additionalMetadata : Option String)
    (embedding : Vector) (timestamp : Option Timestamp) : Record where
  metadata := {
    id, text
    description := description.getD ""
    additionalMetadata := additionalMetadata.getD "" }
  embedding
  key := id
  timestamp

/-- A record of a text that is kept elsewhere. -/
def ofReference (id sourceName : String) (description additionalMetadata : Option String)
    (embedding : Vector) (timestamp : Option Timestamp) : Record where
  metadata := {
    isReference := true
    externalSourceName := sourceName
    id
    description := description.getD ""
    additionalMetadata := additionalMetadata.getD "" }
  embedding
  key := id
  timestamp

/-- The key that a store files the record under. -/
def effectiveKey (r : Record) : String := if r.key.isEmpty then r.metadata.id else r.key

/-- The record without its vector. -/
def withoutEmbedding (r : Record) : Record := { r with embedding := [] }

/-- The record as asked for: with its vector or without. -/
def shown (withEmbedding : Bool) (r : Record) : Record :=
  if withEmbedding then r else r.withoutEmbedding

/-- The fields of a record, as they are written in documents. -/
def jsonFields (r : Record) : List (String × Json) := [
  ("metadata", r.metadata.toJson),
  ("embedding", .array (r.embedding.map fun x => .number (.single x))),
  ("key", .string r.key),
  ("timestamp", .ofString? (r.timestamp.map (·.document)))]

/-- Reads a point in time from a document. -/
def timestampDecoder : Decoder Timestamp
  | _, .string (some text) => (Zoned.readLoose? text).map (·.instant)
  | _, _ => none

/-- Reads a record from a document; only the metadata must be there. -/
def decoder : Decoder Record := .record ["metadata", "embedding", "key", "timestamp"] fun f => do
  return {
    metadata := ← f.required "metadata" Metadata.decoder
    embedding := ← f.withDefault "embedding" [] (.list .single)
    key := ← f.withDefault "key" "" .string
    timestamp := ← f.withDefault "timestamp" none (.option timestampDecoder) }

end Record

/-- A record and how close it is to what was searched for. -/
structure Scored where
  /-- the record -/
  record : Record
  /-- how close it is; more is closer -/
  relevance : Float

end Orchestration.Memory
