import Orchestration.Commands.Basic

/-!
# The health report

What is configured, whether the model on this machine is there, and how the database is.
-/

namespace Orchestration.Commands

/-- The version of the vector functions of databases. -/
def vectorVersion : String := "v0.1.6"

/-- The lines about the configuration. -/
def configLines (c : Config) : List String :=
  let key := if c.completion.apiKey.isSome then "set" else "missing"
  ["skernel Health Report", "=====================", "",
    s!"Storage backend:   {c.storage.backend}",
    s!"Embeddings:        {c.embedding.provider} ({c.embedding.model})",
    s!"Completion:        {c.completion.model} at {c.completion.baseUrl} (API key {key})"]

/-- The lines about the model that vectors were made with. -/
def modelLines (stored : Option String) (configured : String) : List String :=
  let shown := stored.getD "(not set)"
  ["Embedding model:", s!"  Stored:          {shown}", s!"  Configured:      {configured}"] ++
    match stored with
    | some stored =>
      if stored = configured then ["  Status:          OK (match)"]
      else ["  WARNING: model mismatch! Stored vectors will not compare with new ones."]
    | none => []

/-- The lines about a database. -/
def databaseLines (path : String) (size : Nat) (h : Database.Health) (configured : String) :
    List String :=
  let bytes := byteCount size
  [s!"Database:          {path}",
    s!"File size:         {bytes}",
    s!"Schema version:    {h.version}",
    s!"sqlite-vec:        {vectorVersion}",
    ""] ++
    modelLines h.model configured ++
    ["",
      "Row counts:",
      s!"  Collections:     {h.collections}",
      s!"  Records:         {h.records}",
      ""] ++
    if h.isSound then ["Integrity check:   PASSED"]
    else [s!"Integrity check:   FAILED ({h.integrity})", "", s!"Recovery: restore {path} from a backup."]

/-- The report about the database at a path. -/
def examine (path configured : String) : Effect Failure Unit := do
  match ← Effect.ask (.look path) with
  | none =>
    Effect.printLine s!"Database: not found at {path}"
    Effect.printLine "It is created on first use, e.g. `skernel memory save`."
  | some kind =>
    let size := match kind with
      | FileKind.file bytes => bytes
      | .directory => 0
    (Database.openAt path).within "failed to open database (may be corrupt)"
    let health ← (Database.bare path .health).within "failed to run health check"
    (databaseLines path size health configured).forM Effect.printLine

/-- The line about the model on this machine, if one is wanted. -/
def localModelLine (c : Config.Embedding) : Effect Failure Unit := do
  if c.provider = "local" then
    let state := if ← LocalModel.isDownloaded c then "downloaded"
      else "missing (run `skernel model download`)"
    Effect.printLine s!"Local model:       {state}"

/-- The health report. -/
def doctor (c : Config) : Effect Failure Unit := do
  (configLines c).forM Effect.printLine
  localModelLine c.embedding
  Effect.printLine ""
  if c.storage.backend = "sqlite" then
    examine (c.resolvedDatabasePath (← Config.home)) c.embedding.model
  else Effect.printLine s!"No local database to check for the {c.storage.backend} backend."

end Orchestration.Commands
