import Workbench.Linear.Matrix

/-!
# Positive definite matrices

A symmetric matrix is positive definite if it is the product of a triangular matrix and its
transpose. The triangle is built row by row from the upper triangle of the matrix, and the building
stops where a number of its diagonal would not be positive.
-/

namespace Workbench.Linear

def columnOf (rows : List Row) (j : Nat) : Row := rows.map fun row => (row[j]?).getD 0.0

def nextRow? (m : Matrix) (rows : List Row) : Option Row :=
  let j := rows.length
  let above := columnOf rows j
  let pivot := entry m j j - dot above above
  if pivot ≤ 0.0 then none
  else
    let root := pivot.sqrt
    some ((List.range m.length).map fun k =>
      if k < j then 0.0
      else if k = j then root
      else (entry m j k - dot above (columnOf rows k)) * (1.0 / root))

def triangleFrom? (m : Matrix) (rows : List Row) : Nat → Option (List Row)
  | 0 => some rows
  | n + 1 =>
    match nextRow? m rows with
    | none => none
    | some row => triangleFrom? m (rows ++ [row]) n

def isPositiveDefinite (m : Matrix) : Bool := (triangleFrom? m [] m.length).isSome

end Workbench.Linear
