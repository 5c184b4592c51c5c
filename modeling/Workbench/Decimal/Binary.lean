/-!
# Binary fractions

A finite floating-point number as an exact fraction, and the rounding of a fraction to a whole
number. Everything that writes numbers works on these exact values.
-/

namespace Workbench.Decimal

def twoTo (n : Nat) : Nat := Nat.pow 2 n

def tenTo (n : Nat) : Nat := Nat.pow 10 n

/-- The exact magnitude of a finite number, `mant * 2 ^ expo`. `narrow` marks a power of two, where
the next number below is half as far away as the next one above. -/
structure Binary where
  mant : Nat
  expo : Int
  narrow : Bool
deriving DecidableEq, Repr

/-- A number as sign and exact magnitude, or one of the values that are no number. -/
inductive Reading where
  | finite (negative : Bool) (magnitude : Binary)
  | infinite (negative : Bool)
  | nan
deriving DecidableEq, Repr

def Reading.ofBits (bits : UInt64) : Reading :=
  let negative := bits >>> 63 == 1
  let field := ((bits >>> 52) &&& 0x7FF).toNat
  let frac := (bits &&& 0xFFFFFFFFFFFFF).toNat
  if field = 0x7FF then
    if frac = 0 then .infinite negative else .nan
  else if field = 0 then .finite negative ⟨frac, -1074, false⟩
  else .finite negative ⟨twoTo 52 + frac, field - 1075, frac == 0 && 1 < field⟩

def Reading.ofFloat (x : Float) : Reading := .ofBits x.toBits

namespace Binary

/-- The numerator of the magnitude scaled by `10 ^ places`. -/
def num (x : Binary) (places : Int) : Nat := x.mant * twoTo x.expo.toNat * tenTo places.toNat

/-- The denominator of the magnitude scaled by `10 ^ places`. -/
def den (x : Binary) (places : Int) : Nat := twoTo (-x.expo).toNat * tenTo (-places).toNat

end Binary

def width (n : Nat) : Nat := (Nat.toDigits 10 n).length

/-- The least `k` with `num / den < 10 ^ k`, for a positive fraction. -/
def magnitude (num den : Nat) : Int :=
  if den ≤ num then width (num / den) else 1 - (width ((den - 1) / num) : Int)

def roundEven (num den : Nat) : Nat :=
  let q := num / den
  let twice := 2 * (num % den)
  if den < twice then q + 1
  else if twice < den then q
  else if q % 2 = 0 then q else q + 1

end Workbench.Decimal
