import Orchestration.Dictionary
import Orchestration.Number.Single

/-!
# Structured documents

The values of a JSON document. An object keeps its fields in the order in which they will be written;
`Json.ofFields` gives the order of the names, which is the order of every object whose fields are
not fixed in advance.
-/

namespace Orchestration

/-- A number of a document. -/
inductive JsonNumber where
  /-- a whole number -/
  | integer (n : Int)
  /-- a double-precision number -/
  | double (x : Float)
  /-- a single-precision number -/
  | single (x : Number.Single)

/-- A document. -/
inductive Json where
  /-- no value -/
  | null
  /-- a truth value -/
  | bool (value : Bool)
  /-- a number -/
  | number (value : JsonNumber)
  /-- a text -/
  | string (value : String)
  /-- values in a row -/
  | array (items : List Json)
  /-- named values, in the order in which they are written -/
  | object (fields : List (String × Json))

namespace Json

instance : Inhabited Json := ⟨.null⟩

/-- A whole number as a document. -/
def ofInt (n : Int) : Json := .number (.integer n)

/-- A natural number as a document. -/
def ofNat (n : Nat) : Json := .number (.integer n)

/-- A double-precision number as a document. -/
def ofFloat (x : Float) : Json := .number (.double x)

/-- Texts in a row. -/
def ofStrings (texts : List String) : Json := .array (texts.map .string)

/-- A text that may be absent. -/
def ofString? : Option String → Json
  | some s => .string s
  | none => .null

/-- An object whose fields are written in the order of their names; of two fields with one name the
later counts. -/
def ofFields (fields : List (String × Json)) : Json :=
  .object (fields.foldl (fun held f => insertEntry f.1 f.2 held) [])

/-- A dictionary of texts as an object. -/
def ofTexts (d : Dictionary String) : Json :=
  .object (d.entries.map fun e => (e.1, .string e.2))

mutual

/-- The document with the fields of every object in the order of their names. -/
def sorted : Json → Json
  | .array items => .array (sortedItems items)
  | .object fields => .ofFields (sortedFields fields)
  | other => other

/-- Documents with the fields of their objects in order. -/
def sortedItems : List Json → List Json
  | [] => []
  | item :: items => item.sorted :: sortedItems items

/-- Named documents with the fields of their objects in order. -/
def sortedFields : List (String × Json) → List (String × Json)
  | [] => []
  | (name, value) :: fields => (name, value.sorted) :: sortedFields fields

end

/-- The value of a field, if this is an object with it. -/
def field? (name : String) : Json → Option Json
  | .object fields => lookupEntry name fields
  | _ => none

end Json

end Orchestration
