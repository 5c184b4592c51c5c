import Workbench.Data.JsonReader

/-!
# Plain scalars

What a scalar without quotes stands for: nothing, a truth value, a number, or else a text. A number
with an exponent needs a point and a sign of the exponent, or it is a text.
-/

namespace Workbench.Yaml

/-! ## Words -/

def isNull (s : String) : Bool := ["", "~", "null", "Null", "NULL"].contains s

def truth? (s : String) : Option Bool :=
  if ["yes", "Yes", "YES", "true", "True", "TRUE", "on", "On", "ON"].contains s then some true
  else if ["no", "No", "NO", "false", "False", "FALSE", "off", "Off", "OFF"].contains s then
    some false
  else none

/-! ## Numbers -/

def cutSign : List Char → Bool × List Char
  | '-' :: r => (true, r)
  | '+' :: r => (false, r)
  | r => (false, r)

def withoutLines (s : List Char) : List Char := s.filter (· != '_')

def inBase? (base : Nat) (s : List Char) : Option Nat :=
  if s.isEmpty then none
  else
    (withoutLines s).foldl (fun n c => n.bind fun n =>
      (Json.hexValue? c).bind fun d => if d < base then some (n * base + d) else none) (some 0)

def decimal? (s : List Char) : Option Nat :=
  if s.head?.any Char.isDigit then inBase? 10 s else none

def sixties? : Nat → List (List Char) → Option Nat
  | value, [] => some value
  | value, group :: rest =>
    match inBase? 10 group with
    | some n =>
      if group.length ≤ 2 && n < 60 && group.all Char.isDigit then sixties? (value * 60 + n) rest
      else none
    | none => none

def whole? (s : List Char) : Option Nat :=
  match s with
  | ['0'] => some 0
  | '0' :: 'b' :: r => inBase? 2 r
  | '0' :: 'x' :: r => inBase? 16 r
  | '0' :: r => inBase? 8 r
  | _ =>
    match s.splitOn ':' with
    | first :: rest => (decimal? first).bind fun n => sixties? n rest
    | [] => none

def exponent? : List Char → Option Int
  | [] => some 0
  | e :: sign :: c :: r =>
    if (e == 'e' || e == 'E') && (sign == '-' || sign == '+') && (c :: r).all Char.isDigit then
      (inBase? 10 (c :: r)).map fun n => if sign = '-' then -(n : Int) else n
    else none
  | _ => none

def pointed? (negative : Bool) (s : List Char) : Option Float :=
  let whole := s.takeWhile (· != '.')
  match s.drop whole.length with
  | [] => none
  | _ :: r =>
    let frac := r.takeWhile fun c => c.isDigit || c == '_'
    let digits := withoutLines frac
    let fits := if whole.isEmpty then frac.head?.any Char.isDigit
      else (decimal? whole).isSome
    if !fits then none
    else
      match inBase? 10 ('0' :: whole ++ frac), exponent? (r.drop frac.length) with
      | some mant, some e => some (Json.scientific negative mant (e - digits.length))
      | _, _ => none

def real? (s : List Char) : Option Float :=
  let (negative, r) := cutSign s
  let infinite : Float := 1.0 / 0.0
  if [".inf", ".Inf", ".INF"].contains (String.ofList r) then
    some (if negative then -infinite else infinite)
  else if [".nan", ".NaN", ".NAN"].contains (String.ofList s) then some (0.0 / 0.0)
  else if r.head? = some '.' && r.length < s.length then none
  else pointed? negative r

/-! ## Scalars -/

/-- The number of digits that are read as one decimal number; none in other notations. -/
def digitCount (s : List Char) : Nat :=
  let r := withoutLines (cutSign s).2
  if r.all Char.isDigit && r.head? != some '0' then r.length else 0

def resolve (s : String) : Value :=
  let cs := s.toList
  let (negative, r) := cutSign cs
  if isNull s then .null
  else
    match truth? s, real? cs, whole? r with
    | some b, _, _ => .bool b
    | none, some x, _ => .float x
    | none, none, some n => .int (if negative then -n else n)
    | none, none, none => .str s

end Workbench.Yaml
