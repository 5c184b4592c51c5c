import Workbench.Probability.Samples

/-!
# Two curves of probability theory

The density of the semicircle law, after which the eigenvalues of large random matrices are spread,
and the rate at which means of exponential waiting times concentrate.
-/

namespace Workbench.Probability

inductive CurveFault where
  | zeroRadius
  | tooLarge
  -- numbers of any size have neither roots nor logarithms
  | noFunction
deriving DecidableEq, Repr

def near (a : Amount) : Except CurveFault Float := (a.toFloat?).elim (.error .tooLarge) .ok

def fitting (w : Width) : Amount → Except CurveFault Unit
  | .whole n => if w.fits n then .ok () else .error .tooLarge
  | .real _ => .ok ()

/-! ## The semicircle -/

def pi : Float := 3.141592653589793

def squared : Amount → Except CurveFault Amount
  | .whole n => .ok (.whole (n * n))
  | .real x =>
    let y := x * x
    if y.isInf && x.isFinite then .error .tooLarge else .ok (.real y)

def heightOf (square : Amount) : Except CurveFault Float := do
  let area := pi * (← near square)
  if area == 0.0 then throw .zeroRadius
  return 2.0 / area

def isWithin (radius : Amount) : Amount → Bool
  | .whole n =>
    match radius with
    | .whole r => n ≤ r
    | .real r =>
      match (Amount.whole n).toFloat? with
      | some x => x ≤ r
      | none => n < 0
  | .real x =>
    match radius.toFloat? with
    | some r => x ≤ r
    | none => false

def magnitude : Amount → Amount
  | .whole n => .whole n.natAbs
  | .real x => .real x.abs

/-- The difference of two squares, where the second is whole and kept in 64 bits. -/
def wholeDifference (w : Width) (square : Amount) (n : Int) : Float :=
  let other := w.wrap (n * n)
  match square with
  | .whole s => Decimal.ofInt (w.wrap (s - other))
  | .real s => s - Decimal.ofInt other

def semicircle (radius : Amount) (xs : Samples) : Except CurveFault Samples := do
  let square ← squared radius
  let height ← heightOf square
  match xs with
  | .whole w ns =>
    fitting w square
    return .whole w (ns.map fun n =>
      if isWithin radius (.whole (w.wrap n.natAbs)) then
        w.truncate (height * (wholeDifference w square n).sqrt)
      else 0)
  | .real ys =>
    let s ← near square
    return .real (ys.map fun x =>
      if isWithin radius (.real x.abs) then height * (s - x * x).sqrt else 0.0)
  | .free as =>
    if as.any fun a => isWithin radius (magnitude a) then throw .noFunction
    return .free (as.map fun _ => .whole 0)

/-! ## Waiting times -/

def infinite : Float := 1.0 / 0.0

def realRate (rate x : Float) : Float :=
  if 0.0 < x then rate * x - 1.0 - (rate * x).log else infinite

/-- The rate function for a mean that is whole and kept in 64 bits, as is a whole rate. -/
def wholeRate (w : Width) (rate : Amount) (n : Int) : Float :=
  if 0 < n then
    match rate with
    | .whole r =>
      let scaled := w.wrap (r * n)
      Decimal.ofInt (w.wrap (scaled - 1)) - (Decimal.ofInt scaled).log
    | .real r => realRate r (Decimal.ofInt n)
  else infinite

def isPositive : Amount → Bool
  | .whole n => 0 < n
  | .real x => 0.0 < x

def checkProduct (a b : Amount) : Except CurveFault Unit :=
  match a, b with
  | .whole _, .whole _ => .ok ()
  | a, b => do
    let _ ← near a
    let _ ← near b

def exponentialRate (rate : Amount) (xs : Samples) : Except CurveFault Samples := do
  match xs with
  | .whole w ns =>
    fitting w rate
    return .whole w (ns.map fun n => w.truncate (wholeRate w rate n))
  | .real ys =>
    let r ← near rate
    return .real (ys.map (realRate r))
  | .free as =>
    let positive := as.filter isPositive
    positive.forM (checkProduct rate)
    unless positive.isEmpty do throw .noFunction
    return .free (as.map fun _ => .real infinite)

end Workbench.Probability
