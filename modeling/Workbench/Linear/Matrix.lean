import Workbench.Decimal.Root

/-!
# Matrices

Rows of floating-point numbers, and what is computed from them entry by entry.
-/

namespace Workbench.Linear

abbrev Row := List Float

abbrev Matrix := List Row

def entry (m : Matrix) (i j : Nat) : Float := (((m[i]?).getD [])[j]?).getD 0.0

def width (m : Matrix) : Nat := (m.headD []).length

def transpose (m : Matrix) : Matrix :=
  (List.range (width m)).map fun j => m.map fun row => (row[j]?).getD 0.0

def dot (u v : Row) : Float := (List.zipWith (· * ·) u v).foldl (· + ·) 0.0

def absSum (u : Row) : Float := u.foldl (fun s x => s + x.abs) 0.0

def largest? (xs : Row) : Option Float :=
  match xs with
  | [] => none
  | x :: r => some (r.foldl (fun a b => if a < b then b else a) x)

def least? (xs : Row) : Option Float :=
  match xs with
  | [] => none
  | x :: r => some (r.foldl (fun a b => if b < a then b else a) x)

/-! ## Scaling -/

def power (expo : Int) : Float :=
  Decimal.nearest (Decimal.twoTo expo.toNat) (Decimal.twoTo (-expo).toNat)

/-- The exponent by which numbers are divided so that their products stay within bounds: zero unless
the largest of them is very large or very small. -/
def scaleOf (m : Matrix) : Int :=
  let n := (m.flatten.map Decimal.units).foldl max 0
  let expo : Int := (Nat.log2 n : Int) - 1074
  if n = 0 || (-400 < expo && expo < 400) then 0 else expo

/-- Multiplies all numbers by a power of two, in two steps, since the power itself may be out of
bounds. -/
def scaled (expo : Int) (xs : Row) : Row :=
  let half := expo / 2
  xs.map fun x => x * power half * power (expo - half)

end Workbench.Linear
