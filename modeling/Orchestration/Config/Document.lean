import Orchestration.Config.Basic
import Orchestration.Json.Value

/-!
# The configuration as a document

Every setting by section, under the names that configuration files use; a setting that is not there is
null.
-/

namespace Orchestration.Config

/-- The settings of the server. -/
def Server.toJson (s : Server) : Json := .object [
  ("transport", .string s.transport),
  ("log_level", .string s.logLevel),
  ("host", .string s.host),
  ("port", .ofNat s.port)]

/-- The settings of the store. -/
def Storage.toJson (s : Storage) : Json := .object [
  ("backend", .string s.backend),
  ("db_path", .string s.databasePath),
  ("default_collection", .string s.defaultCollection),
  ("qdrant_url", .string s.vectorServer),
  ("qdrant_api_key", .ofString? s.vectorServerKey),
  ("vector_size", .ofNat s.vectorSize)]

/-- The settings of what makes vectors. -/
def Embedding.toJson (e : Embedding) : Json := .object [
  ("provider", .string e.provider),
  ("model", .string e.model),
  ("cache_dir", .string e.cacheDirectory)]

/-- The settings of what continues prompts. -/
def CompletionService.toJson (c : CompletionService) : Json := .object [
  ("base_url", .string c.baseUrl),
  ("model", .string c.model),
  ("api_key", .ofString? c.apiKey),
  ("max_tokens", .ofNat c.maxTokens),
  ("temperature", .number (.single c.temperature)),
  ("timeout_secs", .ofNat c.timeoutSeconds),
  ("max_retries", .ofNat c.maxRetries)]

/-- The settings of the planners. -/
def Planner.toJson (p : Planner) : Json := .object [
  ("max_iterations", .ofNat p.maxIterations),
  ("max_tokens", .ofNat p.maxTokens),
  ("relevancy_threshold", (p.relevancyThreshold.map Json.ofFloat).getD .null),
  ("max_relevant_functions", .ofNat p.maxRelevantFunctions),
  ("excluded_plugins", .ofStrings p.excludedPlugins),
  ("excluded_functions", .ofStrings p.excludedFunctions),
  ("allow_missing_functions", .bool p.allowMissingFunctions)]

/-- The settings of the memory functions. -/
def Recall.toJson (r : Recall) : Json := .object [
  ("default_limit", .ofNat r.defaultLimit),
  ("default_relevance", .ofFloat r.defaultRelevance)]

/-- The sections of a configuration. -/
def jsonFields (c : Config) : List (String × Json) := [
  ("server", c.server.toJson),
  ("storage", c.storage.toJson),
  ("embedding", c.embedding.toJson),
  ("completion", c.completion.toJson),
  ("planner", c.planner.toJson),
  ("memory", c.memory.toJson)]

end Orchestration.Config
