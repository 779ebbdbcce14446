import Orchestration.Ai.LocalModel
import Orchestration.Ai.Remote
import Orchestration.Database.Open
import Orchestration.Memory.Remote
import Orchestration.Plugins.Core

/-!
# Services

What a front end works with: a store, a memory over it, and a kernel with the core plugins, put together as
a configuration says.

* `Services.assemble` — services from parts that are there already.
* `Services.build` — services from a configuration. A store must be had; a model that cannot be had is
  left out, with everything that needs it.
-/

namespace Orchestration

open Memory

/-- What a front end works with. -/
structure Services where
  /-- the configuration -/
  config : Config
  /-- where records are kept -/
  store : Store
  /-- the memory, if there is a model that makes vectors -/
  memory : Option Semantic
  /-- the functions and what they use -/
  kernel : Kernel

namespace Services

/-- Why there is no memory. -/
def memoryUnavailable : String :=
  "semantic memory is unavailable: no embedding generator could be created " ++
    "(run `skernel model download` or set embedding.provider = \"openai\")"

/-- The memory, or why there is none. -/
def requireMemory (s : Services) : Except Failure Semantic :=
  match s.memory with
  | some m => .ok m
  | none => .error (.text memoryUnavailable)

/-- Notes the model that vectors are made with, the first time; a failure to do so does not matter. -/
def noteModel (path model : String) : Effect Failure Unit := do
  match ← (Database.operate path .model).attempt with
  | .ok none => let _ ← (Database.operate path (.setModel model)).attempt
  | _ => pure ()

/-- The store that a configuration names. -/
def createStore (c : Config) : Effect Failure Store := do
  match c.storage.backend with
  | "sqlite" =>
    let path := c.resolvedDatabasePath (← Config.home)
    Database.openAt path
    noteModel path c.embedding.model
    return .inPlace (.file path)
  | "volatile" => return .inPlace .volatile
  | "qdrant" =>
    return (RemoteStore.atAddress c.storage.vectorServer c.storage.vectorServerKey
      c.storage.vectorSize).store
  | other => throw (.text s!"unknown storage backend: {other}. Supported: sqlite, volatile, qdrant")

/-- The remote model of a configuration. -/
def remoteModel (c : Config.CompletionService) : Except Failure RemoteModel :=
  (RemoteModel.ofConfig c).mapError fun e : AiError => (e : Failure)

/-- The model that makes vectors that a configuration names. -/
def createEmbedder (c : Config) : Effect Failure Embedder := do
  match c.embedding.provider with
  | "local" => LocalModel.embedder c.embedding
  | "openai" =>
    let m ← Effect.ofExcept (remoteModel c.completion)
    return { m with embeddingModel := c.embedding.model : RemoteModel }.embedder
  | other => throw (.text s!"unknown embedding provider: {other}. Supported: local, openai")

/-- The model that continues prompts that a configuration names. -/
def createCompletion (c : Config) : Except Failure Completion :=
  (remoteModel c.completion).map (·.completion)

/-- Services from their parts. -/
def assemble (c : Config) (store : Store) (embedder : Option Embedder)
    (completion : Option Completion) : Services :=
  let memory := embedder.map (Semantic.mk store)
  let kernel : Kernel := { completion, memory }
  { config := c, store, memory, kernel := kernel.importCore (.ofConfig c) }

/-- Services as a configuration says. -/
def build (c : Config) : Effect Failure Services := do
  let store ← createStore c
  let embedder ← (createEmbedder c).attempt
  return assemble c store embedder.toOption (createCompletion c).toOption

end Services

end Orchestration
