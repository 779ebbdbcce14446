import Orchestration.Config.Decode
import Orchestration.Outside
import Orchestration.Toml.Reader

/-!
# Loading the configuration

The configuration is what the file says, if there is one, and over it what the environment says.

* `Config.override` — the settings that the environment may give.
* `Config.loadFrom`, `Config.load` — the configuration of a file, and of the file that is read when none
  is named.
-/

namespace Orchestration.Config

/-- The home directory, if it is known. -/
def home {ε : Type} : Effect ε (Option String) := Effect.ask (.environment "HOME")

/-- A setting of the environment, or what holds without it. -/
def fromEnvironment {ε : Type} (name : String) (otherwise : String) : Effect ε String := do
  return ((← Effect.ask (.environment name)) : Option String).getD otherwise

/-- The key of the completion service in the environment: its own setting wins over the general one. -/
def keyFromEnvironment {ε : Type} : Effect ε (Option String) := do
  match ← Effect.ask (.environment "SK_API_KEY") with
  | some key => return some key
  | none => Effect.ask (.environment "OPENAI_API_KEY")

/-- The configuration with the settings that the environment gives. -/
def override {ε : Type} (c : Config) : Effect ε Config := do
  let databasePath ← fromEnvironment "SK_DB" c.storage.databasePath
  let backend ← fromEnvironment "SK_STORE" c.storage.backend
  let vectorServer ← fromEnvironment "SK_QDRANT_URL" c.storage.vectorServer
  let logLevel ← fromEnvironment "SK_LOG_LEVEL" c.server.logLevel
  let model ← fromEnvironment "SK_COMPLETION_MODEL" c.completion.model
  let key ← keyFromEnvironment
  return { c with
    server := { c.server with logLevel }
    storage := { c.storage with databasePath, backend, vectorServer }
    completion := { c.completion with model, apiKey := key <|> c.completion.apiKey } }

/-- What a configuration file says. -/
def readFile (path : String) : Effect Failure Config := do
  match ← Effect.ask (.readFile path) with
  | .error e => throw { contexts := ["failed to read config file"], cause := .plain (Files.FileError.message e) }
  | .ok text =>
    match (Toml.read? text).bind (ofValue (← home)) with
    | some c => return c
    | none => throw { contexts := ["failed to parse config TOML"], cause := .foreign "" }

/-- The configuration with a file, if it is there. -/
def loadFrom (path : String) : Effect Failure Config := do
  let present ← Effect.ask (.look path)
  let c ← if Option.isSome present then readFile path else pure (Config.initial (← home))
  override c

/-- The configuration with the file that is read when none is named. -/
def load : Effect Failure Config := do loadFrom (defaultPath (← home))

end Orchestration.Config
