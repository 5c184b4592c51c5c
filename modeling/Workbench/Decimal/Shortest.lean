import Workbench.Decimal.Binary

/-!
# The fewest digits

The shortest decimal that reads back as a given floating-point number, and of the shortest ones the
nearest. `Binary.readsBack` says which decimals read back: those in the interval between the two
midpoints to the neighbouring numbers, the ends included when the significand is even.
-/

namespace Workbench.Decimal

/-- The value `digits * 10 ^ expo`. -/
structure Digits where
  digits : Nat
  expo : Int
deriving DecidableEq, Repr

def Digits.compareTo (d : Digits) (m : Nat) (q : Int) : Ordering :=
  compare (d.digits * tenTo d.expo.toNat * twoTo (-q).toNat)
    (m * twoTo q.toNat * tenTo (-d.expo).toNat)

def Binary.readsBack (x : Binary) (d : Digits) : Bool :=
  let below := d.compareTo (4 * x.mant - if x.narrow then 1 else 2) (x.expo - 2)
  let above := d.compareTo (4 * x.mant + 2) (x.expo - 2)
  let closed := x.mant % 2 == 0
  (below == .gt || closed && below == .eq) && (above == .lt || closed && above == .eq)

/-- The nearer of the two `n`-digit neighbours of a number that reads back, where `scale` is the
number's own magnitude. -/
def Binary.candidate (x : Binary) (scale : Int) (n : Nat) : Option Digits :=
  let places := (n : Int) - scale
  let near := roundEven (x.num places) (x.den places)
  let down := x.num places / x.den places
  let other := if near = down then down + 1 else down
  if x.readsBack ⟨near, -places⟩ then some ⟨near, -places⟩
  else if x.readsBack ⟨other, -places⟩ then some ⟨other, -places⟩
  else none

def Digits.trim : Nat → Digits → Digits
  | 0, d => d
  | fuel + 1, d =>
    if d.digits % 10 = 0 ∧ d.digits ≠ 0 then trim fuel ⟨d.digits / 10, d.expo + 1⟩ else d

/-- The shortest decimal that reads back. Seventeen digits always do. -/
def Binary.shortest (x : Binary) : Digits :=
  if x.mant = 0 then ⟨0, 0⟩
  else
    let scale := Decimal.magnitude (x.num 0) (x.den 0)
    match (List.range 17).findSome? fun n => x.candidate scale (n + 1) with
    | some d => d.trim 18
    | none => ⟨x.num (-x.expo), x.expo⟩

end Workbench.Decimal
