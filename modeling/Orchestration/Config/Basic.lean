import Orchestration.Files.Path
import Orchestration.Number.Single

/-!
# Configuration

Everything that can be set about the program, in sections, with the values that hold when nothing is set.
Where files are kept depends on the home directory; without one they are kept under `/tmp`.
-/

namespace Orchestration

open Number

namespace Config

/-- How the server is reached and what it logs. -/
structure Server where
  /-- `stdio` or `http` -/
  transport : String := "stdio"
  /-- how much is logged -/
  logLevel : String := "info"
  /-- the address to listen at -/
  host : String := "127.0.0.1"
  /-- the port to listen at -/
  port : Nat := 8731
  deriving DecidableEq, Inhabited

/-- Where memory is kept. -/
structure Storage where
  /-- `sqlite`, `volatile` or `qdrant` -/
  backend : String := "sqlite"
  /-- the database file -/
  databasePath : String
  /-- the collection for calls that name none -/
  defaultCollection : String := "generic"
  /-- the address of the vector server -/
  vectorServer : String := "http://localhost:6333"
  /-- the key of the vector server -/
  vectorServerKey : Option String := none
  /-- the length of the vectors that the vector server keeps -/
  vectorSize : Nat := 384
  deriving DecidableEq, Inhabited

/-- What makes vectors of texts. -/
structure Embedding where
  /-- `local` or `openai` -/
  provider : String := "local"
  /-- the name of the model -/
  model : String := "all-MiniLM-L6-v2"
  /-- where model files are kept -/
  cacheDirectory : String
  deriving DecidableEq, Inhabited

/-- What continues prompts. -/
structure CompletionService where
  /-- the address of the service -/
  baseUrl : String := "https://api.openai.com/v1"
  /-- the name of the model -/
  model : String := "gpt-4o-mini"
  /-- the key of the service -/
  apiKey : Option String := none
  /-- the most tokens an answer may have -/
  maxTokens : Nat := 1024
  /-- how freely the next token is drawn -/
  temperature : Single := .zero
  /-- how many seconds an answer may take -/
  timeoutSeconds : Nat := 60
  /-- how often a call is repeated that the service could not carry out -/
  maxRetries : Nat := 2
  deriving DecidableEq, Inhabited

/-- How plans are made. -/
structure Planner where
  /-- the most turns of a stepwise run -/
  maxIterations : Nat := 15
  /-- the most tokens an answer may have -/
  maxTokens : Nat := 2000
  /-- how close a function must be to the goal to be offered; none offers all -/
  relevancyThreshold : Option Float := none
  /-- the most functions that are offered when they are chosen by relevance -/
  maxRelevantFunctions : Nat := 100
  /-- plugins that are not offered -/
  excludedPlugins : List String := []
  /-- functions that are not offered -/
  excludedFunctions : List String := []
  /-- whether calls of functions that are not there are left out of a plan -/
  allowMissingFunctions : Bool := false
  deriving Inhabited

/-- What the memory functions do when a call leaves it open. -/
structure Recall where
  /-- the most results -/
  defaultLimit : Nat := 1
  /-- how close a result must be -/
  defaultRelevance : Float := 0.75
  deriving Inhabited

/-- The directory for the files of the program. -/
def homeFiles (home : Option String) : String := Files.join (home.getD "/tmp") ".skernel"

end Config

/-- The configuration. -/
structure Config where
  /-- how the server is reached and what it logs -/
  server : Config.Server
  /-- where memory is kept -/
  storage : Config.Storage
  /-- what makes vectors of texts -/
  embedding : Config.Embedding
  /-- what continues prompts -/
  completion : Config.CompletionService
  /-- how plans are made -/
  planner : Config.Planner
  /-- what the memory functions do when a call leaves it open -/
  memory : Config.Recall
  deriving Inhabited

namespace Config

/-- The configuration when nothing is set. -/
def initial (home : Option String) : Config where
  server := {}
  storage := { databasePath := Files.join (homeFiles home) "memory.db" }
  embedding := { cacheDirectory := Files.join (homeFiles home) "models" }
  completion := {}
  planner := {}
  memory := {}

/-- The configuration file that is read when none is named. -/
def defaultPath (home : Option String) : String := Files.join (homeFiles home) "config.toml"

/-- The path of the database file. -/
def resolvedDatabasePath (home : Option String) (c : Config) : String :=
  Files.expandHome home c.storage.databasePath

end Config

end Orchestration
