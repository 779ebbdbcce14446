/-!
# Powers, and the numbers that words hold

* `twoTo`, `tenTo` — powers of two and ten.
* `largest32`, `largest64` — the largest numbers of 32 and of 64 bits.
-/

namespace Orchestration.Number

/-- Two to a power. -/
def twoTo (n : Nat) : Nat := Nat.pow 2 n

/-- Ten to a power. -/
def tenTo (n : Nat) : Nat := Nat.pow 10 n

/-- The largest number that 32 bits hold. -/
def largest32 : Nat := twoTo 32 - 1

/-- The largest number that 64 bits hold. -/
def largest64 : Nat := twoTo 64 - 1

theorem twoTo_zero : twoTo 0 = 1 := rfl

theorem twoTo_succ (n : Nat) : twoTo (n + 1) = twoTo n * 2 := rfl

theorem tenTo_succ (n : Nat) : tenTo (n + 1) = tenTo n * 10 := rfl

theorem twoTo_pos (n : Nat) : 0 < twoTo n := by
  induction n with
  | zero => exact Nat.one_pos
  | succ n ih =>
    rw [twoTo_succ]
    omega

theorem tenTo_pos (n : Nat) : 0 < tenTo n := by
  induction n with
  | zero => exact Nat.one_pos
  | succ n ih =>
    rw [tenTo_succ]
    omega

end Orchestration.Number
