import Workbench.Data.Value
import Workbench.Text.Half
import Workbench.Text.Unprintable

/-!
# Values in running text

How a value is shown inside a sentence or a table cell. A text stands for itself; inside a list or
among fields it is quoted, with single quotes unless it holds one and no double quote.
-/

namespace Workbench

namespace Text

def hexText (width n : Nat) : List Char :=
  let ds := Nat.toDigits 16 n
  List.replicate (width - ds.length) '0' ++ ds

/-- A character inside quotes: the quote itself, the backslash and characters without a printed
form are escaped. -/
def quotedChar (quote c : Char) : List Char :=
  if c = quote ∨ c = '\\' then ['\\', c]
  else if c = '\n' then ['\\', 'n']
  else if c = '\r' then ['\\', 'r']
  else if c = '\t' then ['\\', 't']
  else if isPrintable c then [c]
  else if let some h := Half.of? c then '\\' :: 'u' :: hexText 4 h
  else if c.toNat < 0x100 then '\\' :: 'x' :: hexText 2 c.toNat
  else if c.toNat < 0x10000 then '\\' :: 'u' :: hexText 4 c.toNat
  else '\\' :: 'U' :: hexText 8 c.toNat

def quoted (s : String) : String :=
  let cs := s.toList
  let quote := if cs.contains '\'' && !cs.contains '"' then '"' else '\''
  String.ofList (quote :: cs.flatMap (quotedChar quote) ++ [quote])

end Text

namespace Value

mutual

def inner : Value → String
  | .null => "None"
  | .bool b => if b then "True" else "False"
  | .int n => Decimal.intText n
  | .float x => Decimal.floatText x
  | .str s => Text.quoted s
  | .list items => "[" ++ String.intercalate ", " (innerItems items) ++ "]"
  | .dict fields => "\x7b" ++ String.intercalate ", " (innerFields fields) ++ "\x7d"

def innerItems : List Value → List String
  | [] => []
  | v :: r => inner v :: innerItems r

def innerFields : List (String × Value) → List String
  | [] => []
  | (k, v) :: r => (Text.quoted k ++ ": " ++ inner v) :: innerFields r

end

def display : Value → String
  | .str s => s
  | v => v.inner

end Value

end Workbench
