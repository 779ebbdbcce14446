import Orchestration.Ai.Services
import Orchestration.Config.Load
import Orchestration.Files.Path

/-!
# The model on this machine

A model that makes vectors is two files in the directory for models, which are fetched once.

* `LocalModel.embedder` — the model, if both files are there and can be run.
* `LocalModel.download` — fetches the files that are missing.
-/

namespace Orchestration.LocalModel

open Files

/-- The name of the file with the model itself. -/
def modelFile : String := "model.onnx"

/-- The name of the file that tells how texts are cut. -/
def tokenizerFile : String := "tokenizer.json"

/-- Where models are fetched from. -/
def source : String := "https://huggingface.co/sentence-transformers"

/-- The address of the file with the model itself. -/
def modelUrl (model : String) : String := s!"{source}/{model}/resolve/main/onnx/{modelFile}"

/-- The address of the file that tells how texts are cut. -/
def tokenizerUrl (model : String) : String := s!"{source}/{model}/resolve/main/{tokenizerFile}"

/-- The directory for models. -/
def directory {ε : Type} (c : Config.Embedding) : Effect ε String := do
  return expandHome (← Config.home) c.cacheDirectory

/-- Whether there is anything under a path. -/
def isThere {ε : Type} (path : String) : Effect ε Bool := do
  return Option.isSome (← Effect.ask (.look path))

/-- Whether both files are there. -/
def isDownloaded {ε : Type} (c : Config.Embedding) : Effect ε Bool := do
  let directory ← directory c
  if ← isThere (join directory modelFile) then isThere (join directory tokenizerFile) else return false

/-- A file that has to be there, under the name it has in failures. -/
def requireFile (what path : String) : Effect Failure Unit := do
  if !(← isThere path) then
    throw (.text s!"{what} not found at {path}. Run `skernel model download` first.")

/-- The model that the files describe. No runner for such models belongs to this library, so the files
can be looked for but not run. -/
def embedder (c : Config.Embedding) : Effect Failure Embedder := do
  let directory ← directory c
  requireFile "ONNX model" (join directory modelFile)
  requireFile "Tokenizer" (join directory tokenizerFile)
  throw { contexts := ["failed to load ONNX model"], cause := .foreign "" }

/-- Fetches a file. -/
def fetch (url path : String) : Effect Failure Unit := do
  match ← Effect.ask (.exchange { method := "GET", url }) with
  | .error detail => throw { contexts := [s!"HTTP request failed for {url}"], cause := .foreign detail }
  | .ok response =>
    if Http.Response.isSuccess response then
      match ← Effect.ask (.writeFile path (Http.Response.body response)) with
      | .ok () => return ()
      | .error e => throw { contexts := [s!"failed to create temp file: {path}"], cause := .plain (FileError.message e) }
    else
      let status := Http.statusText (Http.Response.status response)
      throw (.text s!"download failed with HTTP {status}")

/-- Fetches a file unless it is there. -/
def fetchMissing (model directory name url : String) : Effect Failure Unit := do
  let path := join directory name
  if ← isThere path then Effect.printLine s!"{name} already exists at {path}"
  else
    Effect.printLine s!"Downloading {name} for {model}..."
    fetch url path
    Effect.printLine s!"Saved to {path}"

/-- Fetches the files that are missing. -/
def download (c : Config.Embedding) : Effect Failure Unit := do
  let directory ← directory c
  match ← Effect.ask (.makeDirectories directory) with
  | .ok () => pure ()
  | .error e =>
    throw { contexts := [s!"failed to create cache dir: {directory}"], cause := .plain (FileError.message e) }
  fetchMissing c.model directory modelFile (modelUrl c.model)
  fetchMissing c.model directory tokenizerFile (tokenizerUrl c.model)
  Effect.printLine "Model download complete."

end Orchestration.LocalModel
