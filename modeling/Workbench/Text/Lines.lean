/-!
# Lines

Cutting a text into lines, and bringing line ends into one form. A line ends at a line feed, at a
carriage return with or without a line feed after it, at the vertical controls, at the separators
for files, groups and records, and at the line and paragraph separators of Unicode.
-/

namespace Workbench.Text

def isLineEnd (c : Char) : Bool :=
  let n := c.toNat
  (10 ≤ n && n ≤ 12) || (28 ≤ n && n ≤ 30) || n == 0x85 || n == 0x2028 || n == 0x2029

/-- The lines of a text without their ends, where `line` was already read, in reverse. A text that
ends with a line end has no empty line after it. -/
def linesFrom (line : List Char) : List Char → List (List Char)
  | [] => if line.isEmpty then [] else [line.reverse]
  | '\r' :: '\n' :: r => line.reverse :: linesFrom [] r
  | c :: r =>
    if c = '\r' || isLineEnd c then line.reverse :: linesFrom [] r else linesFrom (c :: line) r

def lines (s : String) : List String := (linesFrom [] s.toList).map String.ofList

/-- Every carriage return, with or without a line feed after it, becomes a line feed. -/
def unifyNewlines : List Char → List Char
  | [] => []
  | '\r' :: '\n' :: r => '\n' :: unifyNewlines r
  | c :: r => (if c = '\r' then '\n' else c) :: unifyNewlines r

def plainNewlines (s : String) : String := String.ofList (unifyNewlines s.toList)

end Workbench.Text
