import Workbench.Decimal.Nearest

/-!
# Exact roots

The square root of a sum of squares, rounded once. The squares are added as whole numbers, and the
root of the sum is taken to so many binary places that what is left over can only break a tie.
-/

namespace Workbench.Decimal

/-- The largest whole number whose square is at most `n`, for `n` of at most so many pairs of binary
digits. -/
def wholeRoot : Nat → Nat → Nat
  | 0, _ => 0
  | pairs + 1, n =>
    if n = 0 then 0
    else
      let r := 2 * wholeRoot pairs (n / 4)
      if (r + 1) * (r + 1) ≤ n then r + 1 else r

/-- The magnitude of a number in units of the least positive one; nothing if it is not finite. -/
def units (x : Float) : Nat :=
  match Reading.ofFloat x with
  | .finite _ m => m.mant * twoTo (m.expo + 1074).toNat
  | _ => 0

/-- The binary places to which roots are taken, beyond those of the least positive number. -/
def rootPlaces : Nat := 64

def lengthOf (xs : List Float) : Float :=
  let squares := xs.foldl (fun n x => n + units x * units x) 0
  let scaled := squares * twoTo (2 * rootPlaces)
  let root := wholeRoot (Nat.log2 scaled + 1) scaled
  let rest := if root * root = scaled then 0 else 1
  nearest (2 * root + rest) (twoTo (1074 + rootPlaces + 1))

end Workbench.Decimal
