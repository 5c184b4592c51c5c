import Workbench.Data.Value
import Workbench.Decimal.Nearest

/-!
# Amounts

Numbers as they are given to a calculation: whole numbers of any size, and floating-point numbers.
-/

namespace Workbench

inductive Amount where
  | whole (n : Int)
  | real (x : Float)

namespace Amount

def ofValue? : Value → Option Amount
  | .bool b => some (.whole (if b then 1 else 0))
  | .int n => some (.whole n)
  | .float x => some (.real x)
  | _ => none

def isZero : Amount → Bool
  | .whole n => n == 0
  | .real x => x == 0.0

def toFloat? : Amount → Option Float
  | .whole n =>
    let x := Decimal.ofInt n
    if x.isInf then none else some x
  | .real x => some x

end Amount

end Workbench
