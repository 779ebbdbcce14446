import Orchestration.Number.Layout
import Orchestration.Services

/-!
# Words for people

How values are shown at the command line.
-/

namespace Orchestration.Commands

open Number Text

/-- At most so many characters of a text, with a mark if there are more. -/
def preview (most : Nat) (text : String) : String :=
  let cs := text.toList
  if most < cs.length then .ofList (cs.take most) ++ "..." else text

/-- A count of bytes. -/
def byteCount (bytes : Nat) : String :=
  let size : Float := .ofBits (.ofNat (Format.double.encode false bytes 1))
  if bytes < 1024 then s!"{bytes} B"
  else if bytes < 1024 * 1024 then
    let kilobytes := fixed 1 (size / 1024.0)
    s!"{kilobytes} KB"
  else
    let megabytes := fixed 1 (size / 1048576.0)
    s!"{megabytes} MB"

/-- A name with its value, given as `name=value`. -/
def parseVariable (pair : String) : Except Failure (String × String) :=
  match splitFirst? ['='] pair.toList with
  | some (name, value) => .ok (trim (.ofList name), .ofList value)
  | none => .error (.text s!"invalid variable {quoted pair}, expected key=value")

/-- The variables that pairs set, one after another. -/
def parseVariables (pairs : List String) : Except Failure Variables :=
  (pairs.mapM parseVariable).map .ofList

/-- The collection that a command means. -/
def collectionOr (s : Services) (requested : Option String) : String :=
  requested.getD s.config.storage.defaultCollection

/-- A failure of the memory as a failure of a command. -/
def liftMemory {α : Type} (e : Effect MemoryError α) : Effect Failure α :=
  e.mapError fun e : MemoryError => (e : Failure)

end Orchestration.Commands
