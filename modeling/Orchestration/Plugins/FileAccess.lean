import Orchestration.Files.Path
import Orchestration.Kernel.Function
import Orchestration.Text.Blank

/-!
# File functions
-/

namespace Orchestration.Plugins

open Files Text

/-- A path with the home directory in the place of `~`. -/
def expandedPath {ε : Type} (path : String) : Effect ε String := do
  return expandHome (← Effect.ask (.environment "HOME")) path

/-- The outcome of a question about files, with a context around its failure. -/
def orFail {α : Type} (context : String) : Except FileError α → Effect Failure α
  | .ok value => return value
  | .error e => throw { contexts := [context], cause := .plain e.message }

/-- The text of the file that the input names. -/
def readFile (v : Variables) : Effect Failure String := do
  let path ← expandedPath (trim v.input)
  orFail s!"failed to read {path}" (← Effect.ask (.readFile path))

/-- Puts a text into a file, in directories that are made if they are missing. -/
def writeFile (v : Variables) : Effect Failure String := do
  let path := trim ((v.get? "path").getD "")
  if path.isEmpty then throw (.text "path must not be empty")
  let path ← expandedPath path
  match (parent? path).filter (!·.isEmpty) with
  | none => pure ()
  | some parent =>
    match ← Effect.ask (.makeDirectories parent) with
    | .ok () => pure ()
    | .error e => throw (.text (FileError.message e))
  orFail s!"failed to write {path}" (← Effect.ask (.writeFile path ((v.get? "content").getD "")))
  return ""

/-- Functions on files. -/
def fileFunctions : List Function := [
  .native "read" "Read a file" [{ name := "input", description := "Source file" }] readFile,
  .native "write" "Write a file" [
      { name := "path", description := "Destination file" },
      { name := "content", description := "File content" }] writeFile]

end Orchestration.Plugins
