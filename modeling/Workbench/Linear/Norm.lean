import Workbench.Linear.Spectrum
import Workbench.Linear.Table

/-!
# Norms

The norms of vectors and matrices by their usual order. Numbers of any size are added and compared
exactly, but only the norms that need no root can be taken of them.
-/

namespace Workbench.Linear

inductive NormOrder where
  -- the length of all numbers as one vector, whatever the shape
  | length
  | frobenius
  -- the sum of the singular values
  | nuclear
  | infinite
  | minusInfinite
  | power (p : Float)
  -- no norm at all
  | unknown

def rootOfSquares (xs : Row) : Float := (dot xs xs).sqrt

def orBad {α : Type} : Option α → Except Fault α
  | some a => .ok a
  | none => .error .badTable

/-! ## Floating-point numbers -/

def matrixNorm (m : Matrix) : NormOrder → Except Fault Float
  | .length | .frobenius => .ok (rootOfSquares m.flatten)
  | .nuclear => .ok ((singularValues m).foldl (· + ·) 0.0)
  | .infinite => orBad (largest? (m.map absSum))
  | .minusInfinite => orBad (least? (m.map absSum))
  | .power p =>
    if p == 1.0 then orBad (largest? ((transpose m).map absSum))
    else if p == -1.0 then orBad (least? ((transpose m).map absSum))
    else if p == 2.0 then orBad (largest? (singularValues m))
    else if p == -2.0 then orBad (least? (singularValues m))
    else .error .badTable
  | .unknown => .error .badTable

/-- A norm of a vector. `exact` tells whether its length is to be rounded once only. -/
def rowNorm (exact : Bool) (u : Row) : NormOrder → Except Fault Float
  | .length => .ok (if exact then Decimal.lengthOf u else rootOfSquares u)
  | .infinite => orBad (largest? (u.map Float.abs))
  | .minusInfinite => orBad (least? (u.map Float.abs))
  | .power p =>
    if p == 0.0 then .ok (Decimal.ofInt (u.filter (· != 0.0)).length)
    else if p == 1.0 then .ok (absSum u)
    else if p == 2.0 then .ok (if exact then Decimal.lengthOf u else rootOfSquares u)
    else if p == -1.0 then .ok (1.0 / u.foldl (fun s x => s + 1.0 / x.abs) 0.0)
    else if p == -2.0 then .ok (1.0 / (u.foldl (fun s x => s + 1.0 / (x * x)) 0.0).sqrt)
    else .ok ((u.foldl (fun (s x : Float) => s + x.abs.pow p) 0.0).pow (1.0 / p))
  | .frobenius | .nuclear | .unknown => .error .badTable

/-! ## Numbers of any size -/

def Cell.amount : Cell → Except Fault Amount
  | .number a => .ok a
  | .truth b => .ok (.whole (if b then 1 else 0))
  | _ => .error .badKind

def toFloat (a : Amount) : Except Fault Float := (a.toFloat?).elim (.error .tooLarge) .ok

def magnitude : Amount → Amount
  | .whole n => .whole n.natAbs
  | .real x => .real x.abs

def add (a b : Amount) : Except Fault Amount :=
  match a, b with
  | .whole m, .whole n => .ok (.whole (m + n))
  | a, b => do return .real ((← toFloat a) + (← toFloat b))

def sum (xs : List Amount) : Except Fault Amount :=
  match xs with
  | [] => .ok (.whole 0)
  | x :: r => r.foldlM add x

def square : Amount → Amount
  | .whole n => .whole (n * n)
  | .real x => .real (x * x)

/-- Whether an amount is at most another. A whole number beyond all floating-point numbers lies
outside of them on its own side. -/
def atMost : Amount → Amount → Bool
  | .whole m, .whole n => m ≤ n
  | .whole m, .real y => match (Amount.whole m).toFloat? with
    | some x => x ≤ y
    | none => m < 0
  | .real x, .whole n => match (Amount.whole n).toFloat? with
    | some y => x ≤ y
    | none => 0 < n
  | .real x, .real y => x ≤ y

def largestAmount (xs : List Amount) : Except Fault Amount :=
  match xs with
  | [] => .error .badTable
  | x :: r => .ok (r.foldl (fun a b => if atMost b a then a else b) x)

def leastAmount (xs : List Amount) : Except Fault Amount :=
  match xs with
  | [] => .error .badTable
  | x :: r => .ok (r.foldl (fun a b => if atMost a b then a else b) x)

/-- The root of a sum of squares: the squares can be added, but there is no root. -/
def freeLength {α : Type} (xs : List Amount) : Except Fault α := do
  let _ ← sum (xs.map square)
  throw .badKind

/-- A power of some amounts: they may have it, but their sum has no reciprocal power. Only whole
powers of whole numbers are exact. -/
def freePower {α : Type} (p : Float) (xs : List Amount) : Except Fault α := do
  for a in xs do
    if p < 0.0 && a.isZero then throw .divisionByZero
    if p < 0.0 || p != p.floor then
      let _ ← toFloat a
  throw .noReciprocal

def freeRowNorm (xs : List Amount) : NormOrder → Except Fault Amount
  | .length => freeLength xs
  | .infinite => largestAmount (xs.map magnitude)
  | .minusInfinite => leastAmount (xs.map magnitude)
  | .power p =>
    if p == 0.0 then .ok (.whole (xs.filter fun a => !a.isZero).length)
    else if p == 1.0 then sum (xs.map magnitude)
    else if p == 2.0 then freeLength xs
    else freePower p (xs.map magnitude)
  | .frobenius | .nuclear | .unknown => .error .badTable

def columnsOf (width : Nat) (rows : List (List Amount)) : List (List Amount) :=
  (List.range width).map fun j => rows.filterMap fun row => row[j]?

def freeMatrixNorm (width : Nat) (rows : List (List Amount)) (order : NormOrder) :
    Except Fault Amount := do
  let sums := fun (lines : List (List Amount)) => lines.mapM fun l => sum (l.map magnitude)
  match order with
  | .length | .frobenius => freeLength rows.flatten
  | .nuclear => throw .badKind
  | .infinite => largestAmount (← sums rows)
  | .minusInfinite => leastAmount (← sums rows)
  | .power p =>
    if p == 1.0 then largestAmount (← sums (columnsOf width rows))
    else if p == -1.0 then leastAmount (← sums (columnsOf width rows))
    else if p == 2.0 ∨ p == -2.0 then throw .badKind
    else throw .badTable
  | .unknown => throw .badTable

/-! ## Tables -/

def NormOrder.isLength : NormOrder → Bool
  | .length => true
  | _ => false

def amountRows (width : Nat) : Nat → List Amount → List (List Amount)
  | 0, _ => []
  | n + 1, xs => xs.take width :: amountRows width n (xs.drop width)

def freeNorm (order : NormOrder) (t : Table) : Except Fault Float := do
  let amounts := t.cells.mapM Cell.amount
  match t.shape with
  | [_] => toFloat (← freeRowNorm (← amounts) order)
  | [height, width] =>
    toFloat (← freeMatrixNorm width (amountRows width height (← amounts)) order)
  | _ => if order.isLength then freeLength (← amounts) else throw .badTable

def norm (order : NormOrder) (t : Table) : Except Fault Float := do
  t.checkFinite
  if t.kind = .free then freeNorm order t
  else
    let xs ← t.numbers
    match t.shape with
    | [_] => rowNorm (t.kind = .real && !xs.isEmpty) xs order
    | [height, width] => matrixNorm (rowsOf width height xs) order
    | _ => if order.isLength then return rootOfSquares xs else throw .badTable

end Workbench.Linear
