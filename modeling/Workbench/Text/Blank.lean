/-!
# Blank characters

The white space of running text, and the removal of it at the two ends of a text. A blank is any
character that the Unicode standard gives the property of separating words or lines, together with
the four information separators.
-/

namespace Workbench

/-- The blanks: horizontal and vertical controls, the separators `U+001C` to `U+001F`, and the
space characters of every script. Zero-width characters are not blank. -/
def isBlank (c : Char) : Bool :=
  let n := c.toNat
  (9 ≤ n && n ≤ 13) || (28 ≤ n && n ≤ 32) || n == 0x85 || n == 0xA0 || n == 0x1680 ||
    (0x2000 ≤ n && n ≤ 0x200A) || n == 0x2028 || n == 0x2029 || n == 0x202F || n == 0x205F ||
    n == 0x3000

namespace Text

def stripBy {α : Type} (p : α → Bool) (s : List α) : List α :=
  ((s.dropWhile p).reverse.dropWhile p).reverse

def strip (s : List Char) : List Char := stripBy isBlank s

def stripLeft (s : List Char) : List Char := s.dropWhile isBlank

def stripRight (s : List Char) : List Char := (s.reverse.dropWhile isBlank).reverse

def padRight (width : Nat) (s : String) : String :=
  s ++ String.ofList (List.replicate (width - s.length) ' ')

end Text

end Workbench
