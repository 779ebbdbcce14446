import Orchestration.Database.Tables
import Orchestration.Json.Decode
import Orchestration.Json.Printer

/-!
# Database files in writing

A database file holds nothing as long as the database was not set up, and then one document with all its
tables.

* `Database.write` — the text of the file.
* `Database.read?` — the database of a text; any other text is no database.
-/

namespace Orchestration

namespace MemoryRow

/-- A row as a document. -/
def toJson (r : MemoryRow) : Json := .object [
  ("collection", .string r.collection),
  ("key", .string r.key),
  ("metadata", .string r.metadata),
  ("embedding", .array (r.embedding.map fun b => .ofNat b.toNat)),
  ("dimensions", .ofNat r.dimensions),
  ("timestamp", .ofString? r.timestamp)]

/-- Reads a row. -/
def decoder : Decoder MemoryRow :=
  .record ["collection", "key", "metadata", "embedding", "dimensions", "timestamp"] fun f => do
    let bytes ← f.required "embedding" (.list (.natural 255))
    return {
      collection := ← f.required "collection" .string
      key := ← f.required "key" .string
      metadata := ← f.required "metadata" .string
      embedding := bytes.map .ofNat
      dimensions := ← f.required "dimensions" (.natural Number.largest64)
      timestamp := ← f.required "timestamp" (.option .string) }

end MemoryRow

namespace Tables

/-- Tables as a document. -/
def toJson (t : Tables) : Json := .object [
  ("collections", .ofStrings t.collections.names),
  ("records", .array (t.records.map (·.toJson))),
  ("settings", .ofTexts t.settings),
  ("indexedByDimensions", .bool t.indexedByDimensions)]

/-- Reads tables. -/
def decoder : Decoder Tables :=
  .record ["collections", "records", "settings", "indexedByDimensions"] fun f => do
    let names ← f.required "collections" (.list .string)
    return {
      collections := .ofList (names.map fun name => (name, ()))
      records := ← f.required "records" (.list MemoryRow.decoder)
      settings := ← f.required "settings" .texts
      indexedByDimensions := ← f.required "indexedByDimensions" .bool }

end Tables

namespace Database

/-- The text of a database file. -/
def write (d : Database) : String :=
  match d.tables with
  | none => ""
  | some t => t.toJson.compact

/-- The database in a file of the given text. -/
def read? (text : String) : Option Database :=
  if text.isEmpty then some {}
  else (Tables.decoder.read? text).map fun t => ⟨some t⟩

end Database

end Orchestration
