import Orchestration.Number.Binary

/-!
# Single-precision numbers

A number of 32 bits, kept as its bits, so that two of them are equal when they are written alike.
Sums, products and roots are rounded to single precision.
-/

namespace Orchestration.Number

/-- A single-precision number. -/
structure Single where
  /-- the word that stands for it -/
  bits : UInt32
  deriving DecidableEq, Inhabited, Repr

namespace Single

/-- The number as one of core's. -/
def toFloat32 (x : Single) : Float32 := .ofBits x.bits

/-- One of core's numbers. -/
def ofFloat32 (x : Float32) : Single := ⟨x.toBits⟩

instance : Add Single := ⟨fun a b => ofFloat32 (a.toFloat32 + b.toFloat32)⟩

instance : Mul Single := ⟨fun a b => ofFloat32 (a.toFloat32 * b.toFloat32)⟩

instance : Div Single := ⟨fun a b => ofFloat32 (a.toFloat32 / b.toFloat32)⟩

/-- The square root. -/
def sqrt (x : Single) : Single := ofFloat32 x.toFloat32.sqrt

/-- Zero. -/
def zero : Single := ⟨0⟩

/-- The sum of a list, from the left. -/
def sum (xs : List Single) : Single := xs.foldl (· + ·) zero

/-- What the bits stand for. -/
def parts (x : Single) : Parts := Format.single.decode x.bits.toNat

/-- A natural number, rounded. -/
def ofNat (n : Nat) : Single := ⟨.ofNat (Format.single.encode false n 1)⟩

/-- The same number in double precision. -/
def toDouble (x : Single) : Float := .ofBits (.ofNat (Format.double.ofParts x.parts))

/-- A double-precision number, rounded. -/
def ofDouble (x : Float) : Single :=
  ⟨.ofNat (Format.single.ofParts (Format.double.decode x.toBits.toNat))⟩

/-- Whether the number is neither infinite nor undefined. -/
def isFinite (x : Single) : Bool :=
  match x.parts with
  | .finite .. => true
  | _ => false

end Single

/-- A list of single-precision numbers. -/
abbrev Vector := List Single

end Orchestration.Number
