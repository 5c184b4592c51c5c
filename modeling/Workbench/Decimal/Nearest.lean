import Workbench.Decimal.Binary

/-!
# The nearest floating-point number

Rounds an exact fraction to a floating-point number. The fraction is scaled by a power of two so
that its whole part has 53 digits, or fewer where the numbers run out at the small end; the whole
part is rounded, a half going to the even neighbour.
-/

namespace Workbench.Decimal

def binaryScale (num den : Nat) : Int :=
  let rough : Int := (Nat.log2 num : Int) - Nat.log2 den
  let reached := den * twoTo rough.toNat ≤ num * twoTo (-rough).toNat
  max (-1074) ((if reached then rough else rough - 1) - 52)

/-- The number nearest to a fraction; infinite if the fraction is beyond the largest number. A carry
out of the 53 digits runs into the exponent, where it belongs. -/
def nearest (num den : Nat) : Float :=
  if num = 0 then 0.0
  else
    let scale := binaryScale num den
    let digits := roundEven (num * twoTo (-scale).toNat) (den * twoTo scale.toNat)
    let bits := (scale + 1074).toNat * twoTo 52 + digits
    Float.ofBits (UInt64.ofNat (min bits (0x7FF * twoTo 52)))

def ofInt (n : Int) : Float :=
  if n < 0 then -nearest n.natAbs 1 else nearest n.natAbs 1

end Workbench.Decimal
