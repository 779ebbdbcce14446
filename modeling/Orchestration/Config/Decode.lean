import Orchestration.Config.Basic
import Orchestration.Dictionary
import Orchestration.Number.Binary
import Orchestration.Toml.Value

/-!
# Reading a configuration

Every section and every setting may be missing and then has the value it has when nothing is set; one that
is there must have the right type. A section is a table, or its values in order. Names that are not
known are passed over.
-/

namespace Orchestration.Config

open Number Toml

/-- Takes a value of a type from a setting. -/
abbrev Reading (α : Type) := Value → Option α

namespace Reading

/-- A text. -/
def text : Reading String
  | .string s => some s
  | _ => none

/-- A truth value. -/
def flag : Reading Bool
  | .boolean b => some b
  | _ => none

/-- A natural number of at most `limit`. -/
def natural (limit : Nat) : Reading Nat
  | .integer n => if 0 ≤ n ∧ n ≤ limit then some n.toNat else none
  | _ => none

/-- Whether 64 bits hold a whole number, with or without a sign. -/
def isWord (n : Int) : Bool := -(twoTo 63 : Int) ≤ n && n ≤ largest64

/-- A number in double precision. -/
def float : Reading Float
  | .float x => some x
  | .integer n =>
    if isWord n then some (.ofBits (.ofNat (Format.double.encode (n < 0) n.natAbs 1))) else none
  | _ => none

/-- A number in single precision. -/
def single : Reading Single
  | .float x => some (.ofDouble x)
  | .integer n =>
    if isWord n then some ⟨.ofNat (Format.single.encode (n < 0) n.natAbs 1)⟩ else none
  | _ => none

/-- Texts in a row. -/
def texts : Reading (List String)
  | .array items => items.mapM text
  | _ => none

/-- A setting that may be missing. -/
def maybe {α : Type} (read : Reading α) : Reading (Option α) := fun v => (read v).map some

end Reading

/-- The settings of a section by their names. A date is taken for a section in which nothing is set. -/
def settingsOf (names : List String) : Value → Option (List (String × Value))
  | .table entries => some entries
  | .array items => some (names.zip items)
  | .moment _ => some []
  | _ => none

/-- A setting, or what holds when it is missing. -/
def setting {α : Type} (settings : List (String × Value)) (name : String) (default : α)
    (read : Reading α) : Option α :=
  match lookupEntry name settings with
  | some v => read v
  | none => some default

/-- A section read over what holds when nothing is set. -/
def readServer (d : Server) (v : Value) : Option Server := do
  let s ← settingsOf ["transport", "log_level", "host", "port"] v
  return {
    transport := ← setting s "transport" d.transport .text
    logLevel := ← setting s "log_level" d.logLevel .text
    host := ← setting s "host" d.host .text
    port := ← setting s "port" d.port (.natural 65535) }

@[inherit_doc readServer]
def readStorage (d : Storage) (v : Value) : Option Storage := do
  let s ← settingsOf ["backend", "db_path", "default_collection", "qdrant_url", "qdrant_api_key",
    "vector_size"] v
  return {
    backend := ← setting s "backend" d.backend .text
    databasePath := ← setting s "db_path" d.databasePath .text
    defaultCollection := ← setting s "default_collection" d.defaultCollection .text
    vectorServer := ← setting s "qdrant_url" d.vectorServer .text
    vectorServerKey := ← setting s "qdrant_api_key" d.vectorServerKey (.maybe .text)
    vectorSize := ← setting s "vector_size" d.vectorSize (.natural largest64) }

@[inherit_doc readServer]
def readEmbedding (d : Embedding) (v : Value) : Option Embedding := do
  let s ← settingsOf ["provider", "model", "cache_dir"] v
  return {
    provider := ← setting s "provider" d.provider .text
    model := ← setting s "model" d.model .text
    cacheDirectory := ← setting s "cache_dir" d.cacheDirectory .text }

@[inherit_doc readServer]
def readCompletion (d : CompletionService) (v : Value) : Option CompletionService := do
  let s ← settingsOf ["base_url", "model", "api_key", "max_tokens", "temperature", "timeout_secs",
    "max_retries"] v
  return {
    baseUrl := ← setting s "base_url" d.baseUrl .text
    model := ← setting s "model" d.model .text
    apiKey := ← setting s "api_key" d.apiKey (.maybe .text)
    maxTokens := ← setting s "max_tokens" d.maxTokens (.natural largest32)
    temperature := ← setting s "temperature" d.temperature .single
    timeoutSeconds := ← setting s "timeout_secs" d.timeoutSeconds (.natural largest64)
    maxRetries := ← setting s "max_retries" d.maxRetries (.natural largest32) }

@[inherit_doc readServer]
def readPlanner (d : Planner) (v : Value) : Option Planner := do
  let s ← settingsOf ["max_iterations", "max_tokens", "relevancy_threshold",
    "max_relevant_functions", "excluded_plugins", "excluded_functions", "allow_missing_functions"] v
  return {
    maxIterations := ← setting s "max_iterations" d.maxIterations (.natural largest64)
    maxTokens := ← setting s "max_tokens" d.maxTokens (.natural largest32)
    relevancyThreshold := ← setting s "relevancy_threshold" d.relevancyThreshold (.maybe .float)
    maxRelevantFunctions :=
      ← setting s "max_relevant_functions" d.maxRelevantFunctions (.natural largest64)
    excludedPlugins := ← setting s "excluded_plugins" d.excludedPlugins .texts
    excludedFunctions := ← setting s "excluded_functions" d.excludedFunctions .texts
    allowMissingFunctions := ← setting s "allow_missing_functions" d.allowMissingFunctions .flag }

@[inherit_doc readServer]
def readRecall (d : Recall) (v : Value) : Option Recall := do
  let s ← settingsOf ["default_limit", "default_relevance"] v
  return {
    defaultLimit := ← setting s "default_limit" d.defaultLimit (.natural largest64)
    defaultRelevance := ← setting s "default_relevance" d.defaultRelevance .float }

/-- The configuration that a file describes. -/
def ofValue (home : Option String) (v : Value) : Option Config := do
  let d := Config.initial home
  let s ← settingsOf ["server", "storage", "embedding", "completion", "planner", "memory"] v
  return {
    server := ← setting s "server" d.server (readServer d.server)
    storage := ← setting s "storage" d.storage (readStorage d.storage)
    embedding := ← setting s "embedding" d.embedding (readEmbedding d.embedding)
    completion := ← setting s "completion" d.completion (readCompletion d.completion)
    planner := ← setting s "planner" d.planner (readPlanner d.planner)
    memory := ← setting s "memory" d.memory (readRecall d.memory) }

end Orchestration.Config
