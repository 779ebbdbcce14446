import Orchestration.Kernel.Basic
import Orchestration.Plugins.Clock
import Orchestration.Plugins.FileAccess
import Orchestration.Plugins.Math
import Orchestration.Plugins.Recall
import Orchestration.Plugins.Text
import Orchestration.Plugins.Web

/-!
# The core plugins
-/

namespace Orchestration

open Plugins

/-- The kernel with the core plugins; the one for memory only if the kernel has a memory. -/
def Kernel.importCore (k : Kernel) (d : MemoryDefaults) : Kernel :=
  let k := k.importPlugin "text" textFunctions
  let k := k.importPlugin "math" mathFunctions
  let k := k.importPlugin "time" timeFunctions
  let k := k.importPlugin "http" webFunctions
  let k := k.importPlugin "file" fileFunctions
  let k := k.importPlugin "wait" waitFunctions
  match k.memory with
  | some m => k.importPlugin "memory" (memoryFunctions m d)
  | none => k

end Orchestration
