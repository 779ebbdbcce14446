import Orchestration.Json.Source

/-!
# Reading values out of documents

A decoder takes a value of a domain type from a tree; a tree that does not fit is refused as a whole.

* A record is given by its named fields, or by the values of its fields in their order.
* A field that a record does not know is passed over; one that it knows may stand only once.
* Of two entries of a map with one name, the later counts.
-/

namespace Orchestration

/-- Takes a value from a tree, of which so many levels may be entered. -/
abbrev Decoder (α : Type) := Nat → Source → Option α

namespace Decoder

open Number Source

variable {α : Type}

/-- A text. -/
def string : Decoder String
  | _, .string text => text
  | _, _ => none

/-- A truth value. -/
def bool : Decoder Bool
  | _, .bool b => some b
  | _, _ => none

/-- A natural number of at most `limit`. -/
def natural (limit : Nat) : Decoder Nat
  | _, .number numeral isWhole =>
    match Source.number? numeral isWhole with
    | some (.integer n) => if 0 ≤ n ∧ n ≤ limit then some n.toNat else none
    | _ => none
  | _, _ => none

/-- A number in double precision. -/
def float : Decoder Float
  | _, .number numeral isWhole =>
    match Source.number? numeral isWhole with
    | some (.integer n) =>
      some (.ofBits (.ofNat (Format.double.encode (n < 0) n.natAbs 1)))
    | some (.double x) => some x
    | _ => none
  | _, _ => none

/-- A number in single precision: a whole number is rounded once, another first to double
precision. -/
def single : Decoder Single
  | _, .number numeral isWhole =>
    match Source.number? numeral isWhole with
    | some (.integer n) => some ⟨.ofNat (Format.single.encode (n < 0) n.natAbs 1)⟩
    | some (.double x) => some (.ofDouble x)
    | _ => none
  | _, _ => none

/-- Any document. -/
def json : Decoder Json := fun depth tree => tree.toJson? depth

/-- Anything at all. -/
def ignored : Decoder Unit := fun _ _ => some ()

/-- A value that may be written as `null`. -/
def option (decode : Decoder α) : Decoder (Option α)
  | _, .null => some none
  | depth, tree => (decode depth tree).map some

/-- Values in a row. -/
def list (decode : Decoder α) : Decoder (List α)
  | depth, .array items => do items.mapM (decode (← enter? depth))
  | _, _ => none

/-- Values under names. -/
def map (decode : Decoder α) : Decoder (Dictionary α)
  | depth, .object fields => do
    let depth ← enter? depth
    let entries ← fields.mapM fun (name, tree) => do return (← name, ← decode depth tree)
    return .ofList entries
  | _, _ => none

/-- Texts under names. -/
def texts : Decoder (Dictionary String) := map string

/-! ### Records -/

/-- The fields of a record as they were found. -/
structure Fields where
  /-- how many levels may still be entered -/
  depth : Nat
  /-- whether the values were given without names, in the order of the fields -/
  inRow : Bool
  /-- the values by the names of the fields -/
  found : List (String × Source)

/-- A record with fields of the given names, put together by `build`. -/
def record (names : List String) (build : Fields → Option α) : Decoder α
  | depth, .object fields => do
    let depth ← enter? depth
    let fields ← fields.mapM fun (name, tree) => do return (← name, tree)
    let found := fields.filter (names.contains ·.1)
    if (found.map (·.1)).eraseDups.length < found.length then none
    else build ⟨depth, false, found⟩
  | depth, .array items => do
    let depth ← enter? depth
    if names.length < items.length then none
    else build ⟨depth, true, names.zip items⟩
  | _, _ => none

namespace Fields

/-- A field that must be there. -/
def required (fields : Fields) (name : String) (decode : Decoder α) : Option α := do
  decode fields.depth (← lookupEntry name fields.found)

/-- A field that takes a value of its own if it is not there. -/
def withDefault (fields : Fields) (name : String) (default : α) (decode : Decoder α) : Option α :=
  match lookupEntry name fields.found with
  | some tree => decode fields.depth tree
  | none => some default

/-- A field that may be absent from a record with named fields; in a row it must be there, if only as
`null`. -/
def optional (fields : Fields) (name : String) (decode : Decoder α) : Option (Option α) :=
  match lookupEntry name fields.found with
  | some tree => Decoder.option decode fields.depth tree
  | none => if fields.inRow then none else some none

end Fields

/-- The value of a tree that stands alone. -/
def run (decode : Decoder α) (tree : Source) : Option α := decode depthLimit tree

/-- The value that a text describes. -/
def read? (decode : Decoder α) (s : String) : Option α := (Source.read? s).bind decode.run

end Decoder

end Orchestration
