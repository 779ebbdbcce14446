import Orchestration.Commands.Basic

/-!
# Memory commands
-/

namespace Orchestration.Commands

open Memory Number

/-- Saves a text, under a fresh key if none is given. -/
def save (s : Services) (text : String) (key collection description : Option String) :
    Effect Failure Unit := do
  let memory ← Effect.ofExcept s.requireMemory
  let collection := collectionOr s collection
  let key ← match key with
    | some key => pure key
    | none => Effect.ask .freshKey
  let key ← liftMemory (memory.save collection text key description none)
  Effect.printLine s!"Saved {key} in {collection}"

/-- The lines about something found. -/
def foundLines (number : Nat) (f : Found) : List String :=
  let relevance := fixed 3 f.relevance
  [s!"{number}. [{relevance}] {f.metadata.id}"] ++
    (if f.metadata.text.isEmpty then [] else ["   " ++ preview 120 f.metadata.text]) ++
    (if f.metadata.description.isEmpty then [] else [s!"   description: {f.metadata.description}"]) ++
    (if f.metadata.isReference then [s!"   source: {f.metadata.externalSourceName}"] else [])

/-- The lines about all that was found, numbered from the given number on. -/
def allFoundLines : Nat → List Found → List String
  | _, [] => []
  | number, f :: rest => foundLines number f ++ allFoundLines (number + 1) rest

/-- Searches by meaning. -/
def search (s : Services) (query : String) (collection : Option String) (limit : Nat)
    (least : Option Float) (asJson : Bool) : Effect Failure Unit := do
  let memory ← Effect.ofExcept s.requireMemory
  let collection := collectionOr s collection
  let least := least.getD s.config.memory.defaultRelevance
  let found ← liftMemory (memory.search collection query limit least false)
  if asJson then Effect.printLine (Json.array (found.map (·.toJson))).pretty
  else if found.isEmpty then
    let relevance := plainText least
    Effect.printLine s!"No memories in {collection} matched (min relevance {relevance})."
  else (allFoundLines 1 found).forM Effect.printLine

/-- Shows what is saved under a key. -/
def get (s : Services) (key : String) (collection : Option String) : Effect Failure Unit := do
  let memory ← Effect.ofExcept s.requireMemory
  let collection := collectionOr s collection
  match ← liftMemory (memory.get collection key false) with
  | some found => Effect.printLine found.toJson.pretty
  | none => throw (.text s!"no memory with key {key} in {collection}")

/-- Removes what is saved under a key. -/
def remove (s : Services) (key : String) (collection : Option String) : Effect Failure Unit := do
  let collection := collectionOr s collection
  let present : Bool ← liftMemory (s.store.call (.holds collection))
  if present then liftMemory (s.store.call (.remove collection key))
  Effect.printLine s!"Removed {key} from {collection}"

/-- Shows the names of all collections. -/
def collections (s : Services) : Effect Failure Unit := do
  let names : List String ← liftMemory (s.store.call .collections)
  if names.isEmpty then Effect.printLine "No collections."
  names.forM Effect.printLine

end Orchestration.Commands
