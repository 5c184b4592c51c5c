import Workbench.Survey.Size

/-!
# Sections

Cuts the lines of a source file into sections. A section begins at each line that opens an item of
the language; a file without such lines is cut into pieces of equal length.
-/

namespace Workbench.Split

open Survey (Language)

/-- How the lines that open an item are told: what is stripped from a line first, and how the rest
then begins. -/
structure Opening where
  strip : List Char → List Char
  beginnings : List String

def Opening.matches (o : Opening) (line : String) : Bool :=
  let s := o.strip line.toList
  o.beginnings.any fun b => b.toList.isPrefixOf s

def Opening.rust (beginnings : List String) : Opening := ⟨Text.strip, beginnings⟩

def Opening.of : Language → Opening
  | .rust => .rust ["pub struct", "struct ", "enum ", "impl ", "fn "]
  | .python => ⟨Text.stripLeft, ["class ", "def "]⟩
  | .cpp => ⟨Text.stripLeft, ["class ", "struct ", "namespace ", "template <"]⟩
  | .js => ⟨Text.stripLeft, ["export ", "function ", "class "]⟩

def sections (o : Opening) (lines : List String) : List (List String) :=
  lines.splitBy fun _ line => !o.matches line

def pieces {α : Type} (size : Nat) : List α → List (List α)
  | [] => []
  | a :: r => if size = 0 then [] else (a :: r).take size :: pieces size (r.drop (size - 1))
termination_by lines => lines.length
decreasing_by simp only [List.length_drop, List.length_cons]; omega

inductive ZeroLimit where
  | mk
deriving DecidableEq, Repr

/-- Pieces for a limit that a user gave. Nothing is in the pieces of a negative length. -/
def piecesFor {α : Type} (limit : Int) (lines : List α) : Except ZeroLimit (List (List α)) :=
  if limit = 0 then .error .mk
  else if limit < 0 then .ok []
  else .ok (pieces limit.toNat lines)

def defaultLimit : Int := 120

/-- The parts of a file that is over the limit: its sections, or pieces if there is but one. -/
def parts (o : Opening) (limit : Int) (lines : List String) :
    Except ZeroLimit (List (List String)) :=
  let found := sections o lines
  if found.length = 1 then piecesFor limit lines else .ok found

end Workbench.Split
