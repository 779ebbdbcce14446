import Orchestration.Memory.PointId
import Orchestration.Number.Power

/-!
# Fresh keys

A key for a record that was given none: an identifier of 128 bits that starts with the time, so that later keys
come after earlier ones, and ends in bytes drawn at random.
-/

namespace Orchestration.Memory

/-- The last six bytes of a number, the highest first. -/
def sixBytes (n : Nat) : List UInt8 :=
  (List.range 6).reverse.map fun place => .ofNat (n / Number.twoTo (8 * place) % 256)

/-- The key for a time in milliseconds and ten random bytes. -/
def freshKey (milliseconds : Nat) (random : List UInt8) : String :=
  let marked := (random.modify 0 fun b => b &&& 0x0f ||| 0x70).modify 2 fun b => b &&& 0x3f ||| 0x80
  idText (sixBytes milliseconds ++ marked)

end Orchestration.Memory
