/-!
# Paths

Path names and what can be read off them without looking at any file. A name is cut at slashes;
empty parts and single points mean nothing, two points lead up.
-/

namespace Workbench

/-- Where a name starts: at the working folder, at the top, or at the other top that two slashes
stand for. -/
inductive Origin where
  | here
  | top
  | otherTop
deriving DecidableEq, Repr

namespace Origin

/-- One slash leads to the top, and so do three or more. -/
def ofString (s : String) : Origin :=
  match (s.toList.takeWhile (· == '/')).length with
  | 0 => .here
  | 2 => .otherTop
  | _ => .top

def text : Origin → String
  | .here => ""
  | .top => "/"
  | .otherTop => "//"

def name (origin : Origin) (parts : List String) : String :=
  let s := origin.text ++ String.intercalate "/" parts
  if s = "" then "." else s

end Origin

/-! ## Names as texts -/

namespace PathName

def parts (s : String) : List String := (s.toList.splitOn '/').map String.ofList

/-- A name below another; a name that starts at the top stands alone. -/
def join (base name : String) : String :=
  if name.toList.head? = some '/' then name
  else if base = "" ∨ base.toList.getLast? = some '/' then base ++ name
  else base ++ "/" ++ name

def isAbsolute (s : String) : Bool := s.toList.head? == some '/'

def simplify (absolute : Bool) : List String → List String → List String
  | done, [] => done.reverse
  | done, p :: ps =>
    if p = "" ∨ p = "." then simplify absolute done ps
    else if p = ".." then
      match done with
      | [] => simplify absolute (if absolute then [] else [".."]) ps
      | d :: ds =>
        if d = ".." then simplify absolute (".." :: d :: ds) ps else simplify absolute ds ps
    else simplify absolute (p :: done) ps

def normal (s : String) : String :=
  (Origin.ofString s).name (simplify (isAbsolute s) [] (parts s))

def base (s : String) : String := (parts s).getLast?.getD ""

/-- What stands before the last slash, without slashes at its end unless there is nothing else. -/
def folder (s : String) : String :=
  let head := (s.toList.reverse.dropWhile (· != '/')).reverse
  let trimmed := (head.reverse.dropWhile (· == '/')).reverse
  String.ofList (if trimmed.isEmpty then head else trimmed)

/-- Cuts a file name before its last point; points at the start do not count. -/
def splitName (name : List Char) : List Char × List Char :=
  let lead := name.takeWhile (· == '.')
  let rest := name.dropWhile (· == '.')
  let tail := (rest.reverse.takeWhile (· != '.')).reverse
  if tail.length < rest.length then (lead ++ rest.take (rest.length - tail.length - 1), '.' :: tail)
  else (name, [])

def withoutExtension (s : String) : String :=
  let name := (base s).toList
  let keep := s.length - (splitName name).2.length
  String.ofList (s.toList.take keep)

/-- The way from one place to another, both given in plainest form below the same top. -/
def between (start target : String) : String :=
  let origin := simplify true [] (parts start)
  let goal := simplify true [] (parts target)
  let common := shared origin goal
  let steps := List.replicate (origin.length - common) ".." ++ goal.drop common
  if steps.isEmpty then "." else String.intercalate "/" steps
where
  shared : List String → List String → Nat
    | a :: as, b :: bs => if a = b then shared as bs + 1 else 0
    | _, _ => 0

end PathName

/-! ## Paths as lists of parts -/

structure Path where
  origin : Origin
  parts : List String
deriving DecidableEq, Repr

namespace Path

/-- Reads a name; empty parts and single points are dropped, two points are kept. -/
def ofString (s : String) : Path :=
  ⟨.ofString s, (PathName.parts s).filter fun p => p != "" && p != "."⟩

def toString (p : Path) : String := p.origin.name p.parts

def name (p : Path) : String := p.parts.getLast?.getD ""

def parent (p : Path) : Path := ⟨p.origin, p.parts.dropLast⟩

def child (p : Path) (name : String) : Path := ⟨p.origin, p.parts ++ [name]⟩

/-- What a further name leads to. -/
def join (p : Path) (name : String) : Path :=
  let q := ofString name
  if q.origin = .here then ⟨p.origin, p.parts ++ q.parts⟩ else q

/-- Cuts the last part before its last point, unless that is its first or last character. -/
def cut (p : Path) : List Char × List Char :=
  let name := p.name.toList
  let tail := (name.reverse.takeWhile (· != '.')).reverse
  let keep := name.length - tail.length - 1
  if tail.length < name.length && 0 < keep && !tail.isEmpty then (name.take keep, '.' :: tail)
  else (name, [])

def stem (p : Path) : String := String.ofList p.cut.1

def suffix (p : Path) : String := String.ofList p.cut.2

end Path

end Workbench
