import Orchestration.Outside

/-!
# Stores

Anything that answers the calls of a store: one in this process, one in a file, one behind the network.
-/

namespace Orchestration.Memory

open Number

/-- Something that answers the calls of a store. -/
structure Store where
  /-- the answer to a call -/
  call : (c : Call) → Effect MemoryError c.Answer

namespace Store

/-- The store at a place of this machine. -/
def inPlace (location : StoreLocation) : Store where
  call c := .ofProgram (Program.request (S := Outside) (.store location c))

/-- The single record closest to a vector. -/
def closest? (s : Store) (collection : String) (embedding : Vector) (least : Float)
    (withEmbedding : Bool) : Effect MemoryError (Option Scored) := do
  let found ← s.call (.nearest collection embedding 1 least withEmbedding)
  return List.getLast? found

end Store

end Orchestration.Memory
