import Mathlib.Data.Int.Order.Basic
import Mathlib.Data.Prod.Lex
import Mathlib.Order.Compare

/-!
# The order of doubles

Doubles are compared by sign, exponent and mantissa. Among those that are numbers this is a linear order of
**places**, on which the two zeros share one; what is no number has a place of its own that no comparison
goes by.

* `Number.compare_unpacked` — numbers are compared as their places are.
* `Number.lt_iff_place`, `Number.le_iff_place` — the same for the two comparisons of doubles.
-/

namespace Orchestration.Number

open Float.Model

/-! ### Comparisons -/

theorem compare_toLex {α β : Type} [LinearOrder α] [LinearOrder β] (a a' : α) (b b' : β) :
    compare (toLex (a, b)) (toLex (a', b')) = (compare a a').then (compare b b') := by
  rw [Prod.Lex.compare_def]
  rfl

theorem compare_neg (a b : ℤ) : compare (-a) (-b) = (compare a b).swap := by
  rw [← Std.OrientedOrd.eq_swap]
  rcases lt_trichotomy a b with h | rfl | h
  · rw [compare_gt_iff_gt.mpr h, compare_gt_iff_gt.mpr (Int.neg_lt_neg h)]
  · rw [compare_eq_iff_eq.mpr rfl, compare_eq_iff_eq.mpr rfl]
  · rw [compare_lt_iff_lt.mpr h, compare_lt_iff_lt.mpr (Int.neg_lt_neg h)]

theorem compare_natCast (m n : ℕ) : compare (m : ℤ) n = compare m n := by
  rcases lt_trichotomy m n with h | rfl | h
  · rw [compare_lt_iff_lt.mpr h, compare_lt_iff_lt.mpr (Int.ofNat_lt.mpr h)]
  · rw [compare_eq_iff_eq.mpr rfl, compare_eq_iff_eq.mpr rfl]
  · rw [compare_gt_iff_gt.mpr h, compare_gt_iff_gt.mpr (Int.ofNat_lt.mpr h)]

/-! ### Places -/

/-- Where a double stands that is taken apart: its kind, and among finite numbers of one sign the exponent
and then the mantissa. -/
def unpackedPlace : UnpackedFloat → ℤ ×ₗ ℤ ×ₗ ℤ
  | .infinity .negative => toLex (-2, toLex (0, 0))
  | .finite .negative mantissa exponent _ => toLex (-1, toLex (-exponent, -mantissa))
  | .zero _ => toLex (0, toLex (0, 0))
  | .finite .positive mantissa exponent _ => toLex (1, toLex (exponent, mantissa))
  | .infinity .positive => toLex (2, toLex (0, 0))
  | .notANumber => toLex (3, toLex (0, 0))

/-- **Numbers are compared as their places are.** -/
theorem compare_unpacked {a b : UnpackedFloat} (ha : a ≠ .notANumber) (hb : b ≠ .notANumber) :
    a.compare b = some (compare (unpackedPlace a) (unpackedPlace b)) := by
  -- for each pair of kinds the comparison is settled by the kinds, or by exponents and then mantissas
  rcases a with (_ | _) | _ | _ | ⟨_ | _, m, e, hm⟩ <;>
    rcases b with (_ | _) | _ | _ | ⟨_ | _, m', e', hm'⟩ <;>
    first
    | exact absurd rfl ha
    | exact absurd rfl hb
    | dsimp only [UnpackedFloat.compare, unpackedPlace]
      simp only [compare_toLex, compare_neg, compare_natCast, ← Ordering.swap_then]
      rfl

/-- Where a double stands. -/
def place (x : Float) : ℤ ×ₗ ℤ ×ₗ ℤ := unpackedPlace x.toModel.unpack

section Doubles

variable {x y : Float}

theorem unpack_ne_notANumber (h : x.isNaN = false) : x.toModel.unpack ≠ .notANumber := by
  intro hnan
  have hunpacked : x.toModel.unpack.isNaN = false := h
  rw [hnan] at hunpacked
  cases hunpacked

theorem lt_iff_place (hx : x.isNaN = false) (hy : y.isNaN = false) : x < y ↔ place x < place y := by
  have hlt : x < y ↔ x.toModel.unpack.compare y.toModel.unpack = some .lt := by
    change decide (x.toModel.unpack.lt y.toModel.unpack = true) = true ↔ _
    rw [decide_eq_true_iff, UnpackedFloat.lt, beq_iff_eq]
  rw [hlt, compare_unpacked (unpack_ne_notANumber hx) (unpack_ne_notANumber hy), Option.some.injEq,
    compare_lt_iff_lt, place, place]

theorem le_iff_place (hx : x.isNaN = false) (hy : y.isNaN = false) : x ≤ y ↔ place x ≤ place y := by
  have hle : x ≤ y ↔ (x.toModel.unpack.compare y.toModel.unpack).any (·.isLE) = true := by
    change decide (x.toModel.unpack.le y.toModel.unpack = true) = true ↔ _
    rw [decide_eq_true_iff, UnpackedFloat.le]
  rw [hle, compare_unpacked (unpack_ne_notANumber hx) (unpack_ne_notANumber hy), Option.any_some,
    ← compare_le_iff_le, place, place, Ordering.isLE_iff_ne_gt]

end Doubles

end Orchestration.Number
