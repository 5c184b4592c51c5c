import Workbench.Data.Amount

/-!
# Samples

The points at which a curve is looked at, and its values there. Whole points are kept in 64 bits,
with or without a sign, and their values are cut down to such numbers too; arithmetic on them wraps
around. Points that do not fit are kept one by one as they are.
-/

namespace Workbench.Probability

/-! ## Whole numbers of 64 bits -/

/-- Whether the 64 bits of a whole number hold a sign. -/
inductive Width where
  | signed
  | unsigned
deriving DecidableEq, Repr

namespace Width

def bound : Width → Int
  | .signed => 9223372036854775808
  | .unsigned => 18446744073709551616

def least : Width → Int
  | .signed => -9223372036854775808
  | .unsigned => 0

def fits (w : Width) (n : Int) : Bool := w.least ≤ n && n < w.bound

def wrap (w : Width) (n : Int) : Int :=
  let r := n.emod 18446744073709551616
  if r < w.bound then r else r - 18446744073709551616

/-- Drops the fraction of a number. What does not fit becomes the least number. -/
def truncate (w : Width) (x : Float) : Int :=
  match Decimal.Reading.ofFloat x with
  | .finite negative m =>
    let n : Int := (m.mant * Decimal.twoTo m.expo.toNat / Decimal.twoTo (-m.expo).toNat : Nat)
    let n := if negative then -n else n
    if w.fits n then n else w.least
  | _ => w.least

end Width

/-! ## Samples -/

inductive Samples where
  | whole (width : Width) (xs : List Int)
  | real (xs : List Float)
  -- numbers of any size
  | free (xs : List Amount)

def whole? : Amount → Option Int
  | .whole n => some n
  | .real _ => none

/-- Reads points. Whole numbers of which some fit with a sign and others without count as real. -/
def Samples.ofAmounts (xs : List Amount) : Samples :=
  let wholes := xs.filterMap whole?
  if wholes.any fun n => !Width.signed.fits n && !Width.unsigned.fits n then .free xs
  else if wholes.length < xs.length || xs.isEmpty then .real (xs.map fun a => (a.toFloat?).getD 0.0)
  else if wholes.all Width.signed.fits then .whole .signed wholes
  else if wholes.all fun n => !Width.signed.fits n then .whole .unsigned wholes
  else .real (wholes.map Decimal.ofInt)

end Workbench.Probability
