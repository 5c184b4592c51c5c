import Workbench.Data.Amount
import Workbench.Data.JsonReader
import Workbench.Linear.Matrix
import Workbench.World.CommandLine

/-!
# Given tables

A table as it is given: numbers, truth values, texts or other things, in lists of lists of one
shape. What its cells count as together decides how they become numbers.
-/

namespace Workbench.Linear

inductive Fault where
  -- the shape is wrong, or a cell is not a finite number
  | badTable
  -- a cell is of a kind that cannot be calculated with
  | badKind
  -- a whole number is too large for a floating-point number
  | tooLarge
  | divisionByZero
  -- numbers of any size have no reciprocal
  | noReciprocal
deriving DecidableEq, Repr

inductive Cell where
  | number (a : Amount)
  | truth (b : Bool)
  | text (s : String)
  | absent
  | fields

def Cell.ofValue : Value → Cell
  | .null => .absent
  | .bool b => .truth b
  | .int n => .number (.whole n)
  | .float x => .number (.real x)
  | .str s => .text s
  | .list _ => .absent
  | .dict _ => .fields

/-- Lists of lists of one shape: the lengths from the outside in, and the cells in their order. -/
structure Table where
  shape : List Nat
  cells : List Cell

def depthLimit : Nat := 64

def Table.read? : Nat → Value → Option Table
  | 0, .list _ => none
  | depth + 1, .list items =>
    match items.mapM (read? depth) with
    | none => none
    | some [] => some ⟨[0], []⟩
    | some (t :: ts) =>
      if ts.all fun u => u.shape == t.shape then
        some ⟨(ts.length + 1) :: t.shape, (t :: ts).flatMap Table.cells⟩
      else none
  | _, v => some ⟨[], [.ofValue v]⟩

def Table.ofValue? (v : Value) : Option Table := Table.read? depthLimit v

/-! ## Kinds -/

inductive Kind where
  | truth
  | whole
  | real
  | text
  -- anything, each cell as it is
  | free
deriving DecidableEq, Repr

def isShort (n : Int) : Bool := -9223372036854775808 ≤ n && n < 18446744073709551616

def Cell.isFree : Cell → Bool
  | .number (.whole n) => !isShort n
  | .absent | .fields => true
  | _ => false

def Cell.isText : Cell → Bool
  | .text _ => true
  | _ => false

def Cell.isReal : Cell → Bool
  | .number (.real _) => true
  | _ => false

def Cell.isTruth : Cell → Bool
  | .truth _ => true
  | _ => false

/-- Whether a whole number has 64 bits only without a sign. -/
def Cell.isLong : Cell → Option Bool
  | .number (.whole n) => some (9223372036854775808 ≤ n)
  | _ => none

/-- Whole numbers that have 64 bits neither all with a sign nor all without count as real. -/
def Table.kind (t : Table) : Kind :=
  if t.cells.any Cell.isFree then .free
  else if t.cells.any Cell.isText then .text
  else if t.cells.isEmpty || t.cells.any Cell.isReal then .real
  else if t.cells.all Cell.isTruth then .truth
  else
    let long := t.cells.filterMap Cell.isLong
    if long.all id || !long.any id then .whole else .real

/-! ## Numbers -/

def digitsOf? (s : List Char) : Option (Nat × Nat) :=
  if s.isEmpty then some (0, 0)
  else
    (CommandLine.groupedDigits 0 false s.length s).map fun n => (n, (s.filter (· != '_')).length)

def exponentOf? : List Char → Option Int
  | [] => some 0
  | _ :: r =>
    let (negative, r) := match r with
      | '-' :: r => (true, r)
      | '+' :: r => (false, r)
      | r => (false, r)
    match digitsOf? r with
    | some (n, _ + 1) => some (if negative then -n else n)
    | _ => none

def magnitude? (negative : Bool) (s : List Char) : Option Float :=
  let infinite : Float := 1.0 / 0.0
  let word := String.ofList (s.map Char.toLower)
  if word = "inf" ∨ word = "infinity" then some (if negative then -infinite else infinite)
  else if word = "nan" then some (0.0 / 0.0)
  else
    let body := s.takeWhile fun c => c != 'e' && c != 'E'
    let whole := body.takeWhile (· != '.')
    match digitsOf? whole, digitsOf? (body.drop (whole.length + 1)),
        exponentOf? (s.drop body.length) with
    | some (n, count), some (frac, places), some e =>
      if count + places = 0 then none
      else some (Json.scientific negative (n * Decimal.tenTo places + frac) (e - places))
    | _, _, _ => none

def textNumber? (s : String) : Option Float :=
  match Text.stripBy CommandLine.isMargin s.toList with
  | '-' :: r => magnitude? true r
  | '+' :: r => magnitude? false r
  | r => magnitude? false r

/-- A cell as a number. Among texts a truth value is none; by itself it is zero or one. -/
def Cell.toFloat (kind : Kind) : Cell → Except Fault Float
  | .number a => (a.toFloat?).elim (.error .tooLarge) .ok
  | .truth b => if kind = .text then .error .badTable else .ok (if b then 1.0 else 0.0)
  | .text s => (textNumber? s).elim (.error .badTable) .ok
  | .absent => .ok (0.0 / 0.0)
  | .fields => .error .badKind

def Table.numbers (t : Table) : Except Fault Row := t.cells.mapM (Cell.toFloat t.kind)

/-- A table of numbers that are not finite is refused; whatever else is let pass. -/
def Table.checkFinite (t : Table) : Except Fault Unit := do
  if t.kind = .real then
    unless (← t.numbers).all Float.isFinite do throw .badTable

def rowsOf (width : Nat) : Nat → Row → Matrix
  | 0, _ => []
  | n + 1, xs => xs.take width :: rowsOf width n (xs.drop width)

def Table.matrix? (t : Table) (xs : Row) : Option Matrix :=
  match t.shape with
  | [height, width] => some (rowsOf width height xs)
  | _ => none

end Workbench.Linear
