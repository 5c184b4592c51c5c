import Workbench.Text.Blank
import Workbench.Text.Word

/-!
# Patterns

Flat patterns over text: a row of pieces, each of which takes one character of a class, a run of
characters of a class, or none but a condition on the place. A run is as long as the rest of the row
allows, or as short. Occurrences are found from left to right and do not overlap; they can be
listed, counted or erased.
-/

namespace Workbench

inductive Piece where
  -- one character of a class
  | one (p : Char → Bool)
  -- any number of characters of a class, as many as possible
  | many (p : Char → Bool)
  -- any number of characters of a class, as few as possible
  | few (p : Char → Bool)
  -- everything that follows
  | rest
  -- the border of a word
  | border
  -- the start of a line
  | lineStart
  -- the end of a line
  | lineEnd

abbrev Pattern := List Piece

namespace Pattern

/-! ## Building blocks -/

def literal (s : String) : Pattern := s.toList.map fun c => .one (· == c)

def several (p : Char → Bool) : Pattern := [.one p, .many p]

def gap : Pattern := several isBlank

def blanks : Pattern := [.many isBlank]

def name : Pattern := several isWordChar

def anything : Pattern := [.many (· != '\n')]

def wordStart (s : String) : Pattern := .border :: literal s

/-- Whether a character is a letter in either case. The long `s` and the two further forms of `i`
count as those letters. -/
def isLetter (small c : Char) : Bool :=
  c.toLower == small || (small == 's' && c == 'ſ') || (small == 'i' && (c == 'İ' || c == 'ı'))

def anyCase (s : String) : Pattern := s.toList.map fun c => .one (isLetter c)

def atLine (s : String) : Pattern := .lineStart :: literal s

/-! ## Matching -/

def atBorder (before : Option Char) (rest : List Char) : Bool :=
  before.any isWordChar != rest.head?.any isWordChar

/-- Takes characters of a class, as many as `next` allows, and tells how many were taken in all. -/
def takeMany (p : Char → Bool) (next : Option Char → List Char → Option Nat) :
    Option Char → List Char → Option Nat
  | before, [] => next before []
  | before, c :: r =>
    if p c then
      match takeMany p next (some c) r with
      | some n => some (n + 1)
      | none => next before (c :: r)
    else next before (c :: r)

/-- Takes characters of a class, as few as `next` allows, and tells how many were taken in all. -/
def takeFew (p : Char → Bool) (next : Option Char → List Char → Option Nat) :
    Option Char → List Char → Option Nat
  | before, [] => next before []
  | before, c :: r =>
    match next before (c :: r) with
    | some n => some n
    | none => if p c then (takeFew p next (some c) r).map (· + 1) else none

def fit : Pattern → Option Char → List Char → Option Nat
  | [], _, _ => some 0
  | .one _ :: _, _, [] => none
  | .one p :: ps, _, c :: r => if p c then (fit ps (some c) r).map (· + 1) else none
  | .many p :: ps, before, s => takeMany p (fit ps) before s
  | .few p :: ps, before, s => takeFew p (fit ps) before s
  | .rest :: ps, before, s => (fit ps (s.getLast?.or before) []).map (· + s.length)
  | .border :: ps, before, s => if atBorder before s then fit ps before s else none
  | .lineStart :: ps, before, s =>
    if before.all (· == '\n') then fit ps before s else none
  | .lineEnd :: ps, before, s =>
    if s.head?.all (· == '\n') then fit ps before s else none

/-! ## Occurrences -/

def fitAny (ps : List Pattern) (before : Option Char) (s : List Char) : Option Nat :=
  ps.findSome? fun p => p.fit before s

/-- The occurrences; the first `skip` characters still belong to the one before. -/
def foundFrom (ps : List Pattern) (skip : Nat) (before : Option Char) :
    List Char → List (List Char)
  | [] => []
  | c :: r =>
    match skip with
    | skip + 1 => foundFrom ps skip (some c) r
    | 0 =>
      match fitAny ps before (c :: r) with
      | none => foundFrom ps 0 (some c) r
      | some n => (c :: r).take n :: foundFrom ps (n - 1) (some c) r

def found (ps : List Pattern) (s : List Char) : List (List Char) := foundFrom ps 0 none s

def count (p : Pattern) (s : String) : Nat := (found [p] s.toList).length

/-- How often some patterns occur in a text, each counted by itself. -/
def countAll (ps : List Pattern) (s : String) : Nat := ps.foldl (fun n p => n + p.count s) 0

/-- What stays without the occurrences; the first `skip` characters still belong to one. -/
def eraseFrom (ps : List Pattern) (skip : Nat) (before : Option Char) : List Char → List Char
  | [] => []
  | c :: r =>
    match skip with
    | skip + 1 => eraseFrom ps skip (some c) r
    | 0 =>
      match fitAny ps before (c :: r) with
      | none => c :: eraseFrom ps 0 (some c) r
      | some n => eraseFrom ps (n - 1) (some c) r

def erase (ps : List Pattern) (s : List Char) : List Char := eraseFrom ps 0 none s

end Pattern

end Workbench
