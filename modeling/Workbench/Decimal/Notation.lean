import Workbench.Decimal.Shortest

/-!
# Decimal notation

How numbers are written: with the fewest digits that identify them, with a set number of places, or
with a set number of digits and an exponent.
-/

namespace Workbench.Decimal

def digitText (n : Nat) : String := String.ofList (Nat.toDigits 10 n)

def intText (n : Int) : String :=
  if n < 0 then "-" ++ digitText n.natAbs else digitText n.natAbs

def exponentText (e : Int) : String :=
  (if e < 0 then "e-" else "e+") ++ (if e.natAbs < 10 then "0" else "") ++ digitText e.natAbs

def pointed (digits : List Char) : List Char :=
  match digits with
  | d :: e :: r => d :: '.' :: e :: r
  | ds => ds

/-- Lays out digits and exponent. Numbers from `10 ^ -4` up to `10 ^ 16` are written positionally,
with at least one digit after the point, all others with an exponent. -/
def Digits.plain (d : Digits) : String :=
  let ds := Nat.toDigits 10 d.digits
  let lead : Int := d.expo + ds.length - 1
  if d.digits = 0 then "0.0"
  else if lead < -4 ∨ 16 ≤ lead then String.ofList (pointed ds) ++ exponentText lead
  else if 0 ≤ d.expo then String.ofList (ds ++ List.replicate d.expo.toNat '0') ++ ".0"
  else if 0 ≤ lead then
    String.ofList (ds.take (lead.toNat + 1)) ++ "." ++ String.ofList (ds.drop (lead.toNat + 1))
  else "0." ++ String.ofList (List.replicate (-lead - 1).toNat '0' ++ ds)

def signed (negative : Bool) (s : String) : String := if negative then "-" ++ s else s

def floatText (x : Float) : String :=
  match Reading.ofFloat x with
  | .nan => "nan"
  | .infinite negative => signed negative "inf"
  | .finite negative m => signed negative m.shortest.plain

def pointAt (places : Nat) (n : Nat) : String :=
  let ds := Nat.toDigits 10 n
  let ds := List.replicate (places + 1 - ds.length) '0' ++ ds
  String.ofList (ds.take (ds.length - places)) ++
    (if places = 0 then "" else "." ++ String.ofList (ds.drop (ds.length - places)))

/-- A number with a set number of places, a half to the even neighbour. A result of zero has no
sign. -/
def fixedText (places : Nat) (x : Float) : String :=
  match Reading.ofFloat x with
  | .nan => "nan"
  | .infinite negative => signed negative "inf"
  | .finite negative m =>
    let n := roundEven (m.num places) (m.den places)
    signed (negative && n != 0) (pointAt places n)

/-- A number with one digit before the point, `places` after it, and an exponent. Zero has no
sign. -/
def scientificText (places : Nat) (x : Float) : String :=
  match Reading.ofFloat x with
  | .nan => "nan"
  | .infinite negative => signed negative "inf"
  | .finite negative m =>
    if m.mant = 0 then pointAt places 0 ++ exponentText 0
    else
      let scale := magnitude (m.num 0) (m.den 0)
      let shift := (places : Int) + 1 - scale
      let n := roundEven (m.num shift) (m.den shift)
      -- rounding up may give one digit more
      if n < tenTo (places + 1) then signed negative (pointAt places n ++ exponentText (scale - 1))
      else signed negative (pointAt places (n / 10) ++ exponentText scale)

end Workbench.Decimal
