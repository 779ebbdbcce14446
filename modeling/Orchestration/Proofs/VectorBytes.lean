import Mathlib.Data.Set.Function
import Orchestration.Proofs.VectorLengths

/-!
# Vectors and their bytes

The bytes of a vector are its numbers, one after another, each as four digits to the base 256 with the lowest first.
Every four bytes stand for some number, so vectors and byte strings of whole groups are the same thing written in two
ways; of any other byte string the last group is cut short, and stands for nothing.

* `IsWholePart` — the longest part of a byte string, from its start, that consists of whole groups.
* `isWholePart_decoded` — that part is the bytes of the vector that is read.
* `vectors_asBytes` — reading and writing undo each other.
-/

namespace Orchestration.Memory

open Number

/-! ### Whole groups -/

/-- The longest part of a byte string, from its start, that consists of groups of four. -/
structure IsWholePart (part bytes : List UInt8) : Prop where
  /-- it starts the byte string -/
  starts : part <+: bytes
  /-- it consists of groups of four -/
  whole : 4 ∣ part.length
  /-- it reaches as far as any other that does -/
  longest : ∀ other, other <+: bytes → 4 ∣ other.length → other <+: part

theorem IsWholePart.unique {part other bytes : List UInt8} (h : IsWholePart part bytes)
    (h' : IsWholePart other bytes) : other = part :=
  (h.longest other h'.starts h'.whole).eq_of_length_le (h'.longest part h.starts h.whole).length_le

/-- **What is read** is all but the last group, where that is cut short. -/
theorem exists_cutShort (bytes : List UInt8) :
    ∃ left, bytes = encodeVector (decodeVector bytes) ++ left ∧ left.length < 4 := by
  fun_induction decodeVector bytes with
  | case1 a b c d rest ih =>
    obtain ⟨left, hrest, hleft⟩ := ih
    refine ⟨left, ?_, hleft⟩
    rw [encodeVector_cons, singleBytes_singleOfBytes, List.append_assoc, ← hrest]
    rfl
  | case2 bytes hshort =>
    refine ⟨bytes, rfl, ?_⟩
    match bytes, hshort with
    | [], _ | [_], _ | [_, _], _ | [_, _, _], _ => simp
    | a :: b :: c :: d :: rest, hshort => exact absurd rfl (hshort a b c d rest)

theorem isWholePart_decoded (bytes : List UInt8) : IsWholePart (encodeVector (decodeVector bytes)) bytes := by
  obtain ⟨left, hbytes, hleft⟩ := exists_cutShort bytes
  have hlength := length_encodeVector (decodeVector bytes)
  have hstarts : encodeVector (decodeVector bytes) <+: bytes := ⟨left, hbytes.symm⟩
  refine ⟨hstarts, hlength ▸ Nat.dvd_mul_right 4 _, fun other hother hwhole => ?_⟩
  refine List.prefix_of_prefix_length_le hother hstarts ?_
  have hle := hother.length_le
  have hall := congrArg List.length hbytes
  rw [List.length_append] at hall
  omega

/-! ### Reading and writing -/

/-- The bytes of a number stand where the number stands. -/
theorem take_drop_encodeVector {v : Vector} {i : Nat} {x : Single} (h : v[i]? = some x) :
    ((encodeVector v).drop (4 * i)).take 4 = singleBytes x := by
  induction v generalizing i with
  | nil => cases h
  | cons y v ih =>
    rw [encodeVector_cons]
    cases i with
    | zero =>
      obtain rfl := Option.some.inj h
      rfl
    | succ i =>
      have hdrop : (singleBytes y ++ encodeVector v).drop (4 * (i + 1)) = (encodeVector v).drop (4 * i) := rfl
      rw [hdrop]
      exact ih h

/-- **Vectors as bytes.** A vector is read as it was written, bit for bit, from four bytes for each of its numbers,
which are the digits of the number with the lowest first. What is read from a byte string, whatever its length, is the
one vector whose bytes are the longest part of it that consists of whole groups. So vectors and byte strings of whole
groups correspond to each other one to one. -/
theorem vectors_asBytes :
    (∀ v, decodeVector (encodeVector v) = v ∧ (encodeVector v).length = 4 * v.length) ∧
    (∀ (v : Vector) (i : Nat) (x : Single), v[i]? = some x →
      valueOfBytes (((encodeVector v).drop (4 * i)).take 4) = x.bits.toNat) ∧
    (∀ bytes, IsWholePart (encodeVector (decodeVector bytes)) bytes ∧
      ∀ v, IsWholePart (encodeVector v) bytes → v = decodeVector bytes) ∧
    Set.InvOn decodeVector encodeVector Set.univ {bytes | 4 ∣ bytes.length} ∧
    Set.BijOn encodeVector Set.univ {bytes | 4 ∣ bytes.length} := by
  have hwhole : Set.InvOn decodeVector encodeVector Set.univ {bytes | 4 ∣ bytes.length} := by
    refine ⟨fun v _ => decodeVector_encodeVector v, fun bytes hbytes => ?_⟩
    exact IsWholePart.unique ⟨List.prefix_rfl, hbytes, fun _ hother _ => hother⟩ (isWholePart_decoded bytes)
  refine ⟨fun v => ⟨decodeVector_encodeVector v, length_encodeVector v⟩, ?_, ?_, hwhole, ?_⟩
  · intro v i x hx
    rw [take_drop_encodeVector hx, valueOfBytes_singleBytes]
  · intro bytes
    refine ⟨isWholePart_decoded bytes, fun v h => ?_⟩
    rw [← decodeVector_encodeVector v, ← h.unique (isWholePart_decoded bytes), decodeVector_encodeVector]
  · refine hwhole.bijOn (fun v _ => ?_) fun _ _ => Set.mem_univ _
    exact ⟨v.length, length_encodeVector v⟩

/-- The numbers 1 and -0, and a byte too many. -/
example : decodeVector [0, 0, 128, 63, 0, 0, 0, 128, 7] = [⟨0x3f800000⟩, ⟨0x80000000⟩] := by decide

end Orchestration.Memory
