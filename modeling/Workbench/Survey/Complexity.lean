import Workbench.Survey.Size

/-!
# Complexity

Three rough measures of a source text: how often its branching words occur, how many functions it
seems to define, and how deeply its braces nest. A linter that runs without complaint vouches for at
least one branch.
-/

namespace Workbench.Survey

/-! ## Measures of a text -/

namespace Language

def branchWords : Language → List String
  | .rust => ["if", "for", "while", "match", "loop"]
  | .python => ["if", "for", "while", "elif", "except"]
  | .cpp => ["if", "for", "while", "switch", "catch"]
  | .js => ["if", "for", "while", "switch", "catch"]

open Pattern in
def functionSign : Language → Pattern
  | .rust => wordStart "fn" ++ gap ++ name ++ blanks ++ literal "("
  | .python => wordStart "def" ++ gap ++ name ++ blanks ++ literal "("
  | .cpp => .border :: name ++ gap ++ name ++ blanks ++ literal "("
  | .js => wordStart "function" ++ gap ++ name ++ blanks ++ literal "("

def hasBraces : Language → Bool
  | .python => false
  | _ => true

def linter : Language → String
  | .rust => "cargo"
  | .python => "pylint"
  | .cpp => "cpplint"
  | .js => "eslint"

end Language

def branchCount (s : String) (l : Language) : Nat :=
  Pattern.countAll (l.branchWords.map fun w => Pattern.wordStart w ++ [.border]) s

def functionCount (s : String) (l : Language) : Nat := l.functionSign.count s

/-- Follows the braces of a text: how many are open, and the most that were. A closing brace without
an opening one counts for nothing. -/
def depthFrom (depth deepest : Nat) : List Char → Nat
  | [] => deepest
  | c :: r =>
    if c = '\x7b' then depthFrom (depth + 1) (max deepest (depth + 1)) r
    else if c = '\x7d' then depthFrom (depth - 1) deepest r
    else depthFrom depth deepest r

def nestingDepth (s : String) : Nat := depthFrom 0 0 s.toList

/-! ## Measures of a file -/

structure Complexity where
  branches : Nat
  functions : Nat
  nesting : Nat
  -- whether the linter ran without complaint
  linted : Bool
deriving DecidableEq, Repr

/-- The programs that check source code: `none` for one that is not there, else the exit code that it
comes to in a folder. -/
abbrev Linters := String → Option (String → Int)

/-- The complexity of a text in a language, known or not. The linter runs in the folder of the text. -/
def complexityOf (linters : Linters) (language : Option Language) (folder s : String) : Complexity :=
  match language with
  | none => ⟨0, 0, 0, false⟩
  | some l =>
    let linted := (linters l.linter).any fun code => code folder = 0
    let branches := branchCount s l
    { branches := if linted then max 1 branches else branches
      functions := functionCount s l
      nesting := if l.hasBraces then nestingDepth s else 0
      linted := linted }

def fileComplexity (files : Files) (linters : Linters) (language : Option Language)
    (name : String) : Except FileFault Complexity := do
  let path := Path.ofString name
  return complexityOf linters language path.parent.toString (← files.lenientText path)

end Workbench.Survey
