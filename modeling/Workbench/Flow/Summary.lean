import Workbench.Text.Blank

/-!
# Labels of statements

A plain statement is labelled with its first line, without the blanks around it. Labels of more than
forty characters are cut and end in three points.
-/

namespace Workbench.Flow

def firstLine (s : List Char) : List Char := s.takeWhile (· != '\n')

def shorten (s : List Char) : List Char :=
  if 40 < s.length then s.take 37 ++ ['.', '.', '.'] else s

/-- The label of a statement. The lead is put in front unless the label begins with it. -/
def summary (lead text : String) : String :=
  let line := shorten (Text.strip (firstLine text.toList))
  if lead.toList.isPrefixOf line then String.ofList line else lead ++ String.ofList line

end Workbench.Flow
