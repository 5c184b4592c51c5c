/-!
# Finding a text in a text
-/

namespace Workbench.Text

def occursIn {α : Type} [BEq α] (part : List α) : List α → Bool
  | [] => part.isEmpty
  | c :: r => part.isPrefixOf (c :: r) || occursIn part r

end Workbench.Text
