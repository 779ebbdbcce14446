import Orchestration.Number.Single

/-!
# Pooling

A model gives a vector for every token of a text; the vector of the text is their mean, brought to length
one.

* `meanPool` — the mean of rows; of no rows, zero.
* `normalize` — a vector of length one in the same direction; zero stays as it is.
-/

namespace Orchestration

open Number

/-- A row added to a sum, as far as both go. -/
def addRow : Vector → Vector → Vector
  | x :: xs, y :: ys => (x + y) :: addRow xs ys
  | xs, _ => xs

/-- The mean of rows of the given width. -/
def meanPool (rows : List Vector) (width : Nat) : Vector :=
  let sum := rows.foldl addRow (List.replicate width .zero)
  if rows.isEmpty then sum else sum.map (· / Single.ofNat rows.length)

/-- The length of a vector. -/
def norm (v : Vector) : Single := (Single.sum (v.map fun x => x * x)).sqrt

/-- A vector of length one in the same direction. -/
def normalize (v : Vector) : Vector :=
  let length := norm v
  if 0 < length.toDouble then v.map (· / length) else v

end Orchestration
