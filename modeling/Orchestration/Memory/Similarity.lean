import Orchestration.Error
import Orchestration.Memory.Record

/-!
# Similarity

How close two vectors are, and which of many scored records come first.

* `cosine` — the cosine of the angle between two vectors, in double precision; zero if one of them is
  zero.
* `best` — the records at or above a threshold, by falling relevance and then by key, and of these the
  first ones.
-/

namespace Orchestration.Memory

open Number

/-- The sums of `x · y`, `x · x` and `y · y` along two vectors, from the left. -/
def dotProducts : List (Float × Float) → Float × Float × Float :=
  List.foldl (fun (dot, left, right) (x, y) => (dot + x * y, left + x * x, right + y * y)) (0, 0, 0)

/-- The cosine of the angle between two vectors of one length. -/
def cosine (a b : Vector) : Except MemoryError Float :=
  if a.length = b.length then
    let (dot, left, right) := dotProducts ((a.map (·.toDouble)).zip (b.map (·.toDouble)))
    if left == 0 || right == 0 then .ok 0 else .ok (dot / (left.sqrt * right.sqrt))
  else .error (.dimensionMismatch a.length b.length)

/-- Whether one scored record comes before another, or at the same place: by falling relevance, then by
key. -/
def Scored.precedes (a b : Scored) : Bool :=
  if b.relevance < a.relevance then true
  else if a.relevance < b.relevance then false
  else a.record.effectiveKey ≤ b.record.effectiveKey

/-- The first `limit` of the records with at least the given relevance, best first. What has no
relevance has none that is large enough. -/
def best (limit : Nat) (least : Float) (scored : List Scored) : List Scored :=
  ((scored.filter fun s => least ≤ s.relevance).mergeSort Scored.precedes).take limit

end Orchestration.Memory
