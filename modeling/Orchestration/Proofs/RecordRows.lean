import Mathlib.Data.Nat.Digits.Defs
import Orchestration.Memory.Table
import Orchestration.Proofs.JsonTrees

/-!
# Records as rows

A row keeps all there is to a record: the vector bit for bit, the metadata character for character.

* `Memory.valueOfBytes_singleBytes`, `Memory.toNat_singleOfBytes` — a number by its four digits to the base 256.
* `Memory.singleBytes_singleOfBytes` — every four bytes are the bytes of a number.
* `Memory.decodeVector_encodeVector` — the bytes of a vector stand for it.
* `Memory.Metadata.read?_compact` — metadata that was written is read as it was.
* `Memory.recordOf_rowOf` — the record that the row of a record holds.
-/

namespace Orchestration.Memory

open Number Time

/-! ### Vectors as bytes -/

/-- What digits to the base 256 stand for, the lowest first. -/
def valueOfBytes (bytes : List UInt8) : Nat := Nat.ofDigits 256 (bytes.map UInt8.toNat)

theorem valueOfBytes_four (a b c d : UInt8) :
    valueOfBytes [a, b, c, d] = a.toNat + 256 * (b.toNat + 256 * (c.toNat + 256 * d.toNat)) := rfl

/-- **The four bytes of a number** are its digits. -/
theorem valueOfBytes_singleBytes (x : Single) : valueOfBytes (singleBytes x) = x.bits.toNat := by
  have hword := x.bits.toNat_lt
  rw [singleBytes, valueOfBytes_four]
  simp only [UInt32.toNat_toUInt8, UInt32.toNat_shiftRight, Nat.shiftRight_eq_div_pow, UInt32.reduceToNat,
    Nat.reduceMod, Nat.reducePow]
  omega

/-- **The number that four bytes stand for** has them for its digits. -/
theorem toNat_singleOfBytes (a b c d : UInt8) : (singleOfBytes a b c d).bits.toNat = valueOfBytes [a, b, c, d] := by
  have ha := a.toNat_lt
  have hb := b.toNat_lt
  have hc := c.toNat_lt
  have hd := d.toNat_lt
  -- each byte is put in above those before it
  have hor (low high n : Nat) (h : low < 2 ^ n) : low ||| high <<< n = high * 2 ^ n + low := by
    rw [Nat.or_comm, ← Nat.shiftLeft_add_eq_or_of_lt h, Nat.shiftLeft_eq]
  have hfit (byte : UInt8) (n : Nat) (hn : n ≤ 24) : byte.toNat <<< n % 2 ^ 32 = byte.toNat <<< n := by
    refine Nat.mod_eq_of_lt ?_
    rw [Nat.shiftLeft_eq]
    calc byte.toNat * 2 ^ n < 2 ^ 8 * 2 ^ n := Nat.mul_lt_mul_of_pos_right byte.toNat_lt (Nat.two_pow_pos n)
      _ = 2 ^ (8 + n) := (Nat.pow_add 2 8 n).symm
      _ ≤ 2 ^ 32 := Nat.pow_le_pow_right Nat.two_pos (by omega)
  rw [valueOfBytes_four, singleOfBytes]
  simp only [UInt32.toNat_or, UInt32.toNat_shiftLeft, UInt8.toNat_toUInt32, UInt32.reduceToNat, Nat.reduceMod]
  rw [hfit b 8 (by decide), hfit c 16 (by decide), hfit d 24 (by decide), hor _ _ 8 ha, hor _ _ 16 (by omega),
    hor _ _ 24 (by omega)]
  omega

/-- As many digits that stand for the same are the same. -/
theorem eq_of_valueOfBytes_eq {bytes other : List UInt8} (hlength : bytes.length = other.length)
    (h : valueOfBytes bytes = valueOfBytes other) : bytes = other := by
  have hdigits (bytes : List UInt8) : ∀ digit ∈ bytes.map UInt8.toNat, digit < 256 := by
    intro digit hdigit
    obtain ⟨byte, -, rfl⟩ := List.mem_map.mp hdigit
    exact byte.toNat_lt
  refine List.map_injective_iff.mpr (fun _ _ => UInt8.toNat_inj.mp) ?_
  refine Nat.ofDigits_inj_of_len_eq (by decide : 1 < 256) ?_ (hdigits bytes) (hdigits other) h
  rw [List.length_map, List.length_map, hlength]

/-- **Every four bytes** are the bytes of a number. -/
theorem singleBytes_singleOfBytes (a b c d : UInt8) : singleBytes (singleOfBytes a b c d) = [a, b, c, d] := by
  refine eq_of_valueOfBytes_eq rfl ?_
  rw [valueOfBytes_singleBytes, toNat_singleOfBytes]

/-- **The four bytes of a number** stand for it, whatever its bits. -/
theorem singleOfBytes_singleBytes (x : Single) :
    singleOfBytes x.bits.toUInt8 (x.bits >>> 8).toUInt8 (x.bits >>> 16).toUInt8 (x.bits >>> 24).toUInt8 = x := by
  refine congrArg Single.mk (UInt32.toNat_inj.mp ?_)
  exact (toNat_singleOfBytes _ _ _ _).trans (valueOfBytes_singleBytes x)

theorem encodeVector_cons (x : Single) (v : Vector) : encodeVector (x :: v) = singleBytes x ++ encodeVector v :=
  List.flatMap_cons

/-- **The bytes of a vector** stand for it, bit for bit. -/
theorem decodeVector_encodeVector (v : Vector) : decodeVector (encodeVector v) = v := by
  induction v with
  | nil => rfl
  | cons x v ih =>
    rw [encodeVector_cons, singleBytes]
    simp only [List.cons_append, List.nil_append]
    rw [decodeVector, ih, singleOfBytes_singleBytes]

/-! ### Metadata as documents -/

namespace Metadata

/-- The fields of metadata, as they are read. -/
def sourceFields (m : Metadata) : List (String × Source) := [
  ("is_reference", .bool m.isReference),
  ("external_source_name", .string m.externalSourceName),
  ("id", .string m.id),
  ("description", .string m.description),
  ("text", .string m.text),
  ("additional_metadata", .string m.additionalMetadata)]

theorem toJson_source? (m : Metadata) :
    m.toJson.source? = some (.object (m.sourceFields.map fun f => (some f.1, f.2))) := rfl

/-- **Metadata that was written** is read as it was. -/
theorem read?_compact (m : Metadata) : decoder.read? m.toJson.compact = some m := by
  have hnames : m.sourceFields.map Prod.fst = fieldNames := rfl
  have hknown : ∀ f ∈ m.sourceFields, f.1 ∈ fieldNames := fun f hf =>
    hnames ▸ List.mem_map_of_mem hf
  have hnodup : (m.sourceFields.map Prod.fst).Nodup := by
    rw [hnames]
    decide
  rw [Decoder.read?_compact decoder m.toJson_source?, Decoder.run, decoder,
    Decoder.record_of_fields hknown hnodup ofFields (by decide)]
  rfl

end Metadata

/-! ### Rows -/

theorem rowOf_key (collection : String) (record : Record) :
    (rowOf collection record).key = record.effectiveKey := rfl

/-- **The record that a row of a record holds** is that record under its effective key; only the time is
read from its text. -/
theorem recordOf_rowOf (withEmbedding : Bool) (collection : String) (record : Record) :
    recordOf withEmbedding (rowOf collection record) = .ok {
      metadata := record.metadata
      embedding := if withEmbedding then record.embedding else []
      key := record.effectiveKey
      timestamp := ((record.timestamp.map (·.stored)).bind Zoned.readStrict?).map (·.instant) } := by
  have hmetadata := Metadata.read?_compact record.metadata
  have hvector := decodeVector_encodeVector record.embedding
  rw [recordOf, rowOf]
  simp only [hmetadata, hvector]

end Orchestration.Memory
