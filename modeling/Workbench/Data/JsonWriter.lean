import Workbench.Data.Value
import Workbench.Text.Half

/-!
# Writing JSON

A value as JSON, either on one line or with one item per line. Strings can be kept to plain ASCII,
with all other characters written as escapes of their 16-bit units.
-/

namespace Workbench.Json

structure Style where
  -- one item per line, indented by this many spaces for each level
  indent : Option Nat
  -- between a list's items, if they stand on one line
  comma : String
  colon : String
  -- write only plain ASCII characters
  ascii : Bool

def Style.compact : Style := ⟨none, ",", ":", false⟩

def Style.report : Style := ⟨some 2, ",", ": ", true⟩

def Style.indented : Style := ⟨some 2, ",", ": ", false⟩

def hexDigit (n : Nat) : Char := (Nat.toDigits 16 (n % 16)).headD '0'

def unitEscape (n : Nat) : List Char :=
  ['\\', 'u', hexDigit (n / 4096), hexDigit (n / 256), hexDigit (n / 16), hexDigit n]

def unitEscapes (c : Char) : List Char :=
  match Half.of? c with
  | some h => unitEscape h
  | none =>
    let n := c.toNat
    if n < 0x10000 then unitEscape n
    else
      let n := n - 0x10000
      unitEscape (0xD800 + n / 1024) ++ unitEscape (0xDC00 + n % 1024)

def charText (ascii : Bool) (c : Char) : List Char :=
  match c with
  | '"' => ['\\', '"']
  | '\\' => ['\\', '\\']
  | '\n' => ['\\', 'n']
  | '\r' => ['\\', 'r']
  | '\t' => ['\\', 't']
  | '\x0c' => ['\\', 'f']
  | '\x08' => ['\\', 'b']
  | c => if c.toNat < 0x20 || (ascii && 0x7F ≤ c.toNat) then unitEscapes c else [c]

def stringText (ascii : Bool) (s : String) : String :=
  String.ofList ('"' :: s.toList.flatMap (charText ascii) ++ ['"'])

def floatText (x : Float) : String :=
  match Decimal.Reading.ofFloat x with
  | .nan => "NaN"
  | .infinite negative => Decimal.signed negative "Infinity"
  | .finite .. => Decimal.floatText x

def Style.newline (style : Style) (level : Nat) : String :=
  match style.indent with
  | none => ""
  | some n => "\n" ++ String.ofList (List.replicate (n * level) ' ')

def Style.enclose (style : Style) (level : Nat) (left right : String) (items : List String) :
    String :=
  if items.isEmpty then left ++ right
  else left ++ style.newline (level + 1) ++
    String.intercalate (style.comma ++ style.newline (level + 1)) items ++
    style.newline level ++ right

mutual

def valueText (style : Style) (level : Nat) : Value → String
  | .null => "null"
  | .bool b => if b then "true" else "false"
  | .int n => Decimal.intText n
  | .float x => floatText x
  | .str s => stringText style.ascii s
  | .list items => style.enclose level "[" "]" (itemTexts style (level + 1) items)
  | .dict fields => style.enclose level "\x7b" "\x7d" (fieldTexts style (level + 1) fields)

def itemTexts (style : Style) (level : Nat) : List Value → List String
  | [] => []
  | v :: r => valueText style level v :: itemTexts style level r

def fieldTexts (style : Style) (level : Nat) : List (String × Value) → List String
  | [] => []
  | (k, v) :: r =>
    (stringText style.ascii k ++ style.colon ++ valueText style level v) :: fieldTexts style level r

end

def render (style : Style) (v : Value) : String := valueText style 0 v

end Workbench.Json
