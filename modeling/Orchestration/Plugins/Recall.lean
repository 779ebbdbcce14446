import Orchestration.Config.Basic
import Orchestration.Json.Printer
import Orchestration.Kernel.Function
import Orchestration.Memory.Semantic
import Orchestration.Number.Layout
import Orchestration.Number.Reading
import Orchestration.Text.Blank

/-!
# Memory functions

Saving, recalling and removing texts. A call that leaves the collection open, or blank, means the
collection of the defaults; a name that is not blank is taken as it is.
-/

namespace Orchestration.Plugins

open Memory Number Text

/-- What holds when a call leaves it open. -/
structure MemoryDefaults where
  /-- the collection -/
  collection : String
  /-- how close a result must be -/
  relevance : Float
  /-- the most results -/
  limit : Nat

/-- The defaults of a configuration. -/
def MemoryDefaults.ofConfig (c : Config) : MemoryDefaults :=
  ⟨c.storage.defaultCollection, c.memory.defaultRelevance, c.memory.defaultLimit⟩

/-- The collection that a call means. -/
def collectionOf (d : MemoryDefaults) (v : Variables) : String :=
  match v.get? "collection" with
  | some name => if isBlankText name then d.collection else name
  | none => d.collection

/-- A variable that must not be blank. -/
def requiredText (v : Variables) (name : String) : Effect Failure String :=
  let text := (v.get? name).getD ""
  if isBlankText text then throw (KernelError.invalidArgument name "must not be empty" : Failure)
  else return text

/-- A variable as a value, or the default if it is blank. -/
def valueOr {α : Type} (read? : String → Option α) (v : Variables) (name : String) (default : α) :
    Effect Failure α :=
  let text := trim ((v.get? name).getD "")
  if text.isEmpty then return default
  else match read? text with
    | some value => return value
    | none => throw (KernelError.invalidArgument name s!"cannot parse {quoted text}" : Failure)

/-- The outcome of a question to the memory, with a context around its failure. -/
def fromMemory {α : Type} (context : String) (e : Effect MemoryError α) : Effect Failure α :=
  e.mapError fun e : MemoryError => (e : Failure).within context

/-- The texts closest to the input: one text if at most one is wanted, else a list. -/
def recollect (m : Semantic) (d : MemoryDefaults) (v : Variables) : Effect Failure String := do
  let query ← requiredText v "input"
  let relevance ← valueOr readFloat? v "relevance" d.relevance
  let limit ← valueOr (readNatural? largest64) v "limit" d.limit
  match ← fromMemory "memory search failed" (m.search (collectionOf d v) query limit relevance false) with
  | [] => return ""
  | first :: rest =>
    if limit = 1 then return first.metadata.text
    else return (Json.ofStrings ((first :: rest).map (·.metadata.text))).compact

/-- Saves the input under a key. -/
def save (m : Semantic) (d : MemoryDefaults) (v : Variables) : Effect Failure String := do
  let text ← requiredText v "input"
  let key ← requiredText v "key"
  let _ ← fromMemory "failed to save memory" (m.save (collectionOf d v) text key none none)
  return ""

/-- Removes what is saved under a key. -/
def forget (m : Semantic) (d : MemoryDefaults) (v : Variables) : Effect Failure String := do
  let key ← requiredText v "key"
  fromMemory "failed to remove memory" (m.remove (collectionOf d v) key)
  return ""

/-- Functions on memory. -/
def memoryFunctions (m : Semantic) (d : MemoryDefaults) : List Function :=
  let collection : Parameter :=
    { name := "collection", description := "Memory collection", default := some d.collection }
  [.native "recall" "Semantic search and return up to N memories related to the input text" [
      { name := "input", description := "The input text to find related memories for" },
      collection,
      { name := "relevance", description := "The relevance score, from 0.0 to 1.0"
        default := some (plainText d.relevance) },
      { name := "limit", description := "The maximum number of memories to return"
        default := some s!"{d.limit}" }] (recollect m d),
    .native "save" "Save information to semantic memory" [
      { name := "input", description := "The information to save" },
      collection,
      { name := "key", description := "The key to save the information under" }] (save m d),
    .native "remove" "Remove specific memory" [
      collection,
      { name := "key", description := "The key of the memory to remove" }] (forget m d)]

end Orchestration.Plugins
