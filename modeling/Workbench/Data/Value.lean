import Workbench.Decimal.Notation

/-!
# Values

The values of settings, reports and messages: what a data file in the usual notation of lists and
named fields can hold. Fields keep the order in which they were first set.
-/

namespace Workbench

inductive Value where
  | null
  | bool (b : Bool)
  | int (n : Int)
  | float (x : Float)
  | str (s : String)
  | list (items : List Value)
  | dict (fields : List (String × Value))
deriving Inhabited

/-! ## Fields -/

/-- Fields in the order in which they were first set. -/
abbrev Fields := List (String × Value)

namespace Fields

def set (key : String) (v : Value) : Fields → Fields
  | [] => [(key, v)]
  | (k, w) :: r => if k = key then (k, v) :: r else (k, w) :: set key v r

def get? (key : String) (fields : Fields) : Option Value :=
  (fields.find? fun p => p.1 == key).map Prod.snd

end Fields

namespace Value

def field? (key : String) : Value → Option Value
  | .dict fields => Fields.get? key fields
  | _ => none

def str? : Value → Option String
  | .str s => some s
  | _ => none

/-- Whether a value counts as present: absent, false, zero and empty values do not. -/
def truthy : Value → Bool
  | .null => false
  | .bool b => b
  | .int n => n != 0
  | .float x => x != 0.0
  | .str s => s != ""
  | .list items => !items.isEmpty
  | .dict fields => !fields.isEmpty

/-! ## Looking into a value of unknown shape -/

inductive ShapeFault where
  | noFields
  | noMembers
deriving DecidableEq, Repr

def fields : Value → Except ShapeFault Fields
  | .dict fields => .ok fields
  | _ => .error .noFields

def fieldOr (v : Value) (key : String) (missing : Value) : Except ShapeFault Value := do
  return (Fields.get? key (← v.fields)).getD missing

def members : Value → Except ShapeFault (List Value)
  | .list items => .ok items
  | .dict fields => .ok (fields.map fun p => .str p.1)
  | .str s => .ok (s.toList.map fun c => .str (String.ofList [c]))
  | _ => .error .noMembers

end Value

end Workbench
