import Workbench.Linear.Matrix

/-!
# Singular values and eigenvalues

The columns of a matrix are turned against each other, two at a time, until all of them are
perpendicular; their lengths are then the singular values. A symmetric matrix is turned in the plane
of two axes at a time, so that the entry for these two vanishes, until only the diagonal is left; it
holds the eigenvalues. Very large and very small matrices are brought to a common size first.
-/

namespace Workbench.Linear

/-! ## Turning -/

def tangent (zeta : Float) : Float :=
  if 1.0e150 < zeta.abs then 0.5 / zeta
  else (if zeta < 0.0 then -1.0 else 1.0) / (zeta.abs + (1.0 + zeta * zeta).sqrt)

def cosineSine (t : Float) : Float × Float :=
  let c := 1.0 / (1.0 + t * t).sqrt
  (c, c * t)

/-- How often all pairs are turned. Each round squares what is left, so few are needed. -/
def rounds : Nat := 40

/-! ## Singular values -/

def rotate (u v : Row) : Row × Row :=
  let overlap := dot u v
  if overlap == 0.0 then (u, v)
  else
    let (c, s) := cosineSine (tangent ((dot v v - dot u u) / (2.0 * overlap)))
    (List.zipWith (fun x y => c * x - s * y) u v, List.zipWith (fun x y => s * x + c * y) u v)

def rotateAll (u : Row) : List Row → Row × List Row
  | [] => (u, [])
  | v :: vs =>
    let (u, v) := rotate u v
    let (u, vs) := rotateAll u vs
    (u, v :: vs)

def sweep : Nat → List Row → List Row
  | n + 1, u :: vs =>
    let (u, vs) := rotateAll u vs
    u :: sweep n vs
  | _, vs => vs

def settle (columns : List Row) : List Row :=
  (List.range rounds).foldl (fun cs _ => sweep cs.length cs) columns

def descending (xs : Row) : Row := xs.mergeSort fun a b => b ≤ a

def ascending (xs : Row) : Row := xs.mergeSort fun a b => a ≤ b

def singularValues (m : Matrix) : Row :=
  let columns := if width m ≤ m.length then transpose m else m
  let expo := scaleOf m
  let settled := settle (columns.map (scaled (-expo)))
  descending (scaled expo (settled.map Decimal.lengthOf))

/-! ## Eigenvalues -/

def fromLower (m : Matrix) : Matrix :=
  (List.range m.length).map fun i => (List.range m.length).map fun j =>
    if j ≤ i then entry m i j else entry m j i

def isLost (x y : Float) : Bool := y.abs + x.abs == y.abs

/-- Turns two axes so that the entry for them vanishes. One that is lost beside the two entries on
the diagonal is dropped. -/
def turn (m : Matrix) (p q : Nat) : Matrix :=
  let x := entry m p q
  if x == 0.0 then m
  else
    let a := entry m p p
    let b := entry m q q
    let t := if isLost x a && isLost x b then 0.0 else tangent ((b - a) / (2.0 * x))
    let (c, s) := cosineSine t
    let first := fun k => c * entry m k p - s * entry m k q
    let second := fun k => s * entry m k p + c * entry m k q
    (List.range m.length).map fun i => (List.range m.length).map fun j =>
      if i = p ∧ j = p then a - t * x
      else if i = q ∧ j = q then b + t * x
      else if (i = p ∧ j = q) ∨ (i = q ∧ j = p) then 0.0
      else if i = p then first j
      else if j = p then first i
      else if i = q then second j
      else if j = q then second i
      else entry m i j

def turnAll (m : Matrix) : Matrix :=
  (List.range m.length).foldl
    (fun m q => (List.range q).foldl (fun m p => turn m p q) m) m

def eigenvalues (m : Matrix) : Row :=
  let symmetric := fromLower m
  let expo := scaleOf symmetric
  let turned := (List.range rounds).foldl (fun m _ => turnAll m) (symmetric.map (scaled (-expo)))
  ascending (scaled expo ((List.range m.length).map fun i => entry turned i i))

end Workbench.Linear
