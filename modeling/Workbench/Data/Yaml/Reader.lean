import Workbench.Data.Yaml.Scalar
import Workbench.Data.Yaml.Scanner

/-!
# Reading YAML

Reads a text in the bracketed style of YAML, of which JSON is a part. The tokens are put together by
a machine that keeps the lists and dictionaries that are still open. A comma may end a list; a key
without a value has none; in a list, a key and its value make a dictionary of one field.
-/

namespace Workbench.Yaml

/-- A list or dictionary that is still open, with the place where it began and its items in
reverse. -/
inductive Frame where
  | list (mark : Mark) (items : List Value)
  | dict (mark : Mark) (fields : Fields) (key : Option String)
  -- a key in a list, whose value comes next
  | pair (key : String)

inductive Want where
  -- the text's one value
  | document
  | item
  | itemEnd
  | key
  | keyEnd
  | value
  | valueEnd
  | pairValue
  | nothing (result : Value)

structure Machine where
  frames : List Frame
  want : Want
  -- the first fault that shows only when the values are put together
  late : Option Fault

def keyText? : Value → Option String
  | .null => some "null"
  | .bool b => some (if b then "true" else "false")
  | .int n => some (Decimal.intText n)
  | .float x => some (Decimal.floatText x)
  | .str s => some s
  | .list _ | .dict _ => none

namespace Machine

def noteLate (m : Machine) (f : Fault) : Machine := { m with late := m.late.or (some f) }

def asKey (m : Machine) (mark place : Mark) (v : Value) : Machine × String :=
  match keyText? v with
  | some s => (m, s)
  | none =>
    (m.noteLate ⟨some ("while constructing a mapping", mark), "found unhashable key", some place⟩,
      "")

def deliver (m : Machine) (place : Mark) (v : Value) : Machine :=
  match m.frames with
  | [] => { m with want := .nothing v }
  | .list mark items :: r => { m with frames := .list mark (v :: items) :: r, want := .itemEnd }
  | .dict mark fields none :: r =>
    let (m, key) := m.asKey mark place v
    { m with frames := .dict mark fields (some key) :: r, want := .keyEnd }
  | .dict mark fields (some key) :: r =>
    { m with frames := .dict mark (Fields.set key v fields) none :: r, want := .valueEnd }
  | .pair key :: .list mark items :: r =>
    { m with frames := .list mark (.dict [(key, v)] :: items) :: r, want := .itemEnd }
  | .pair _ :: r => { m with frames := r }

def depthLimit : Nat := 485

def enter (m : Machine) (frame : Frame) (want : Want) : Except Fault Machine :=
  if depthLimit ≤ m.frames.length then
    .error ⟨none, "maximum recursion depth exceeded", none⟩
  else .ok { m with frames := frame :: m.frames, want := want }

def digitsFault (n : Nat) : Fault :=
  ⟨none, "Exceeds the limit (4300 digits) for integer string conversion: value has " ++
    Decimal.digitText n ++ " digits; use sys.set_int_max_str_digits() to increase the limit", none⟩

def plain (m : Machine) (place : Mark) (s : String) : Machine :=
  let n := digitCount s.toList
  if 4300 < n then (m.noteLate (digitsFault n)).deliver place .null
  else m.deliver place (resolve s)

def begin (m : Machine) (t : Located) : Except Fault Machine :=
  match t.token with
  | .quoted s => .ok (m.deliver t.mark (.str s))
  | .plain s => .ok (m.plain t.mark s)
  | .listOpen => m.enter (.list t.mark []) .item
  | .dictOpen => m.enter (.dict t.mark [] none) .key
  | other =>
    let kind := if m.frames.isEmpty then "block" else "flow"
    .error ⟨some ("while parsing a " ++ kind ++ " node", t.mark),
      "expected the node content, but found " ++ Text.quoted other.word, some t.mark⟩

def close (m : Machine) : Machine :=
  match m.frames with
  | .list mark items :: r => { m with frames := r }.deliver mark (.list items.reverse)
  | .dict mark fields _ :: r => { m with frames := r }.deliver mark (.dict fields)
  | _ => m

def unended (m : Machine) (t : Located) : Fault :=
  let got := ", but got " ++ Text.quoted t.token.word
  match m.frames with
  | .dict mark _ _ :: _ => ⟨some ("while parsing a flow mapping", mark),
      "expected ',' or '\x7d'" ++ got, some t.mark⟩
  | .list mark _ :: _ => ⟨some ("while parsing a flow sequence", mark),
      "expected ',' or ']'" ++ got, some t.mark⟩
  | _ => ⟨none, "expected the end" ++ got, some t.mark⟩

def openPair (m : Machine) (place : Mark) : Machine :=
  match m.frames with
  | .list mark (v :: items) :: r =>
    let (m, key) := m.asKey place place v
    { m with frames := .pair key :: .list mark items :: r, want := .pairValue }
  | _ => m

def endItem (m : Machine) (next : Want) (t : Located) : Except Fault Machine :=
  match t.token, m.frames with
  | .comma, _ => .ok { m with want := next }
  | .listClose, .list .. :: _ => .ok m.close
  | .dictClose, .dict .. :: _ => .ok m.close
  | _, _ => .error (m.unended t)

def step (m : Machine) (t : Located) : Except Fault Machine :=
  match m.want, t.token with
  | .document, _ => m.begin t
  | .item, .listClose => .ok m.close
  | .item, _ => m.begin t
  | .itemEnd, .colon true => .ok (m.openPair t.mark)
  | .itemEnd, _ => m.endItem .item t
  | .key, .dictClose => .ok m.close
  | .key, _ => m.begin t
  | .keyEnd, .colon true => .ok { m with want := .value }
  | .keyEnd, _ => (m.deliver t.mark .null).endItem .key t
  | .value, .comma | .value, .dictClose => (m.deliver t.mark .null).endItem .key t
  | .value, _ => m.begin t
  | .valueEnd, _ => m.endItem .key t
  | .pairValue, .comma | .pairValue, .listClose => (m.deliver t.mark .null).endItem .item t
  | .pairValue, _ => m.begin t
  | .nothing _, .finish => .ok m
  | .nothing _, other =>
    .error ⟨none, "expected '<document start>', but found " ++ Text.quoted other.word, some t.mark⟩

def run (broken : Option Fault) : Machine → List Located → Except Fault Value
  | m, [] =>
    match broken, m.late, m.want with
    | some f, _, _ => .error f
    | none, some f, _ => .error f
    | none, none, .nothing v => .ok v
    | none, none, _ => .ok .null
  | m, t :: ts => (m.step t).bind fun m => run broken m ts

end Machine

/-! ## Texts -/

def isAllowed (c : Char) : Bool :=
  let n := c.toNat
  n == 9 || n == 10 || n == 13 || (0x20 ≤ n && n ≤ 0x7E) || n == 0x85 ||
    (0xA0 ≤ n && n ≤ 0xFFFD) || 0x10000 ≤ n

def forbidden (name : String) (position : Nat) (c : Char) : String :=
  "unacceptable character #x" ++ String.ofList (Text.hexText 4 c.toNat) ++
    ": special characters are not allowed\n  in \"" ++ name ++ "\", position " ++
    Decimal.digitText position

def Mark.message (name : String) (m : Mark) : String :=
  "  in \"" ++ name ++ "\", line " ++ Decimal.digitText (m.line + 1) ++ ", column " ++
    Decimal.digitText (m.column + 1)

def Fault.message (name : String) (f : Fault) : String :=
  let context := match f.context with
    | none => []
    | some (text, mark) => if some mark = f.place then [text] else [text, mark.message name]
  let place := (f.place.map (Mark.message name)).toList
  String.intercalate "\n" (context ++ f.problem :: place)

def read (name s : String) : Except String Value :=
  match s.toList.findIdx? fun c => !isAllowed c with
  | some i => .error (forbidden name i ((s.toList[i]?).getD ' '))
  | none =>
    match tokens s with
    | ([⟨.finish, _⟩], none) => .ok .null
    | (ts, broken) =>
      match Machine.run broken ⟨[], .document, none⟩ ts with
      | .ok v => .ok v
      | .error f => .error (f.message name)

end Workbench.Yaml
