import Orchestration.Number.Single

/-!
# Vectors as bytes

A vector is stored as four bytes for each of its numbers, the least significant first. Bytes after the
last whole group of four stand for nothing.
-/

namespace Orchestration.Memory

open Number

/-- The four bytes of a number, the least significant first. -/
def singleBytes (x : Single) : List UInt8 :=
  [x.bits.toUInt8, (x.bits >>> 8).toUInt8, (x.bits >>> 16).toUInt8, (x.bits >>> 24).toUInt8]

/-- The number that four bytes stand for. -/
def singleOfBytes (a b c d : UInt8) : Single :=
  ⟨a.toUInt32 ||| b.toUInt32 <<< 8 ||| c.toUInt32 <<< 16 ||| d.toUInt32 <<< 24⟩

/-- A vector as bytes. -/
def encodeVector (v : Vector) : List UInt8 := v.flatMap singleBytes

/-- The vector that bytes stand for. -/
def decodeVector : List UInt8 → Vector
  | a :: b :: c :: d :: rest => singleOfBytes a b c d :: decodeVector rest
  | _ => []

end Orchestration.Memory
