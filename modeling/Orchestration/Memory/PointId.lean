import Orchestration.Digest

/-!
# Names of points

A vector server names its points by identifiers of 128 bits, so a key is named by the first bits of a digest of
it. Equal keys have equal names.
-/

namespace Orchestration.Memory

/-- The name space that the digests are taken in. -/
def nameSpace : List UInt8 :=
  [0x6b, 0xa7, 0xb8, 0x12, 0x9d, 0xad, 0x11, 0xd1, 0x80, 0xb4, 0x00, 0xc0, 0x4f, 0xd4, 0x30, 0xc8]

/-- An identifier made of a digest: sixteen bytes of it, with the marks of its kind in two of them. -/
def markedId (digest : List UInt8) : List UInt8 :=
  ((digest.take 16).modify 6 fun b => b &&& 0x0f ||| 0x50).modify 8 fun b => b &&& 0x3f ||| 0x80

/-- Bytes in sixteens, two digits each. -/
def hexText (bytes : List UInt8) : String :=
  .ofList (bytes.flatMap fun b => [Nat.digitChar (b.toNat / 16), Nat.digitChar (b.toNat % 16)])

/-- An identifier in writing: five groups of digits. -/
def idText (id : List UInt8) : String :=
  "-".intercalate [hexText (id.take 4), hexText ((id.drop 4).take 2), hexText ((id.drop 6).take 2),
    hexText ((id.drop 8).take 2), hexText (id.drop 10)]

/-- The name of the point of a key. -/
def pointId (key : String) : String :=
  idText (markedId (Digest.ofBytes (nameSpace ++ key.toUTF8.toList)))

end Orchestration.Memory
