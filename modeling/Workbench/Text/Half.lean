/-!
# Lone halves

A character beyond the first 65536 can be written as a pair of 16-bit halves, and an escape can name
one half without the other. Such a half is part of a text, though no encoding has bytes for it. It
is no character either. A code point stands for it that is none: it lies in a plane of the code space to
which no characters are assigned.
-/

namespace Workbench.Half

def isHigh (n : Nat) : Bool := 0xD800 ≤ n && n < 0xDC00

def isLow (n : Nat) : Bool := 0xDC00 ≤ n && n < 0xE000

/-- The distance from a half to the code point that stands for it. -/
def distance : Nat := 0xD0000

def char (n : Nat) : Char :=
  if isHigh n || isLow n then Char.ofNat (n + distance) else Char.ofNat n

def of? (c : Char) : Option Nat :=
  let n := c.toNat - distance
  if isHigh n || isLow n then some n else none

def occursIn (s : String) : Bool := s.toList.any fun c => (of? c).isSome

/-- The text of some code points, where two halves side by side make one character. -/
def join : List Nat → List Char
  | [] => []
  | [a] => [char a]
  | a :: b :: r =>
    if isHigh a && isLow b then
      Char.ofNat (0x10000 + (a - 0xD800) * 1024 + (b - 0xDC00)) :: join r
    else char a :: join (b :: r)

end Workbench.Half
