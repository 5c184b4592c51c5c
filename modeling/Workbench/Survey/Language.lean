import Workbench.Text.Pattern
import Workbench.World.Reading

/-!
# Programming languages

The language of a source file, told by its extension or else by what its first characters look
like. Each language has a few tell-tale patterns; the language whose patterns occur most often wins,
and of several the one listed first.
-/

namespace Workbench.Survey

inductive Language where
  | rust
  | python
  | cpp
  | js
deriving DecidableEq, Repr

namespace Language

def all : List Language := [.rust, .python, .cpp, .js]

def word : Language → String
  | .rust => "rust"
  | .python => "python"
  | .cpp => "cpp"
  | .js => "js"

def ofWord? (s : String) : Option Language := all.find? fun l => l.word == s

def label : Option Language → String
  | some l => l.word
  | none => "unknown"

/-! ## By extension -/

def extensions : Language → List String
  | .rust => [".rs"]
  | .python => [".py"]
  | .cpp => [".cpp", ".h", ".hpp"]
  | .js => [".js", ".ts", ".jsx", ".tsx"]

/-- The extension of a file in small letters. Only the letters of ASCII count: no other character
has one of the letters of the extensions above as its small form. -/
def extension (name : String) : String :=
  String.ofList ((Path.ofString name).suffix.toList.map Char.toLower)

def ofExtension? (name : String) : Option Language :=
  all.find? fun l => l.extensions.contains (extension name)

/-! ## By content -/

open Pattern in
def signs : Language → List Pattern
  | .rust => [
      wordStart "use" ++ gap ++ name ++ literal "::",
      wordStart "fn" ++ gap ++ name ++ blanks ++ literal "(",
      wordStart "pub" ++ gap ++ literal "struct" ++ gap ++ name,
      wordStart "impl" ++ gap ++ name ++ gap ++ literal "for" ++ gap ++ name,
      wordStart "mod" ++ gap ++ name ++ literal ";"]
  | .python => [
      atLine "import" ++ gap ++ name,
      wordStart "def" ++ gap ++ name ++ blanks ++ literal "(",
      wordStart "class" ++ gap ++ name ++ anything ++ literal ":",
      literal "if" ++ gap ++ literal "__name__" ++ blanks ++ literal "==" ++ blanks ++
        [.one fun c => c == '"' || c == '\''] ++ literal "__main__\"",
      atLine "from" ++ gap ++ name ++ gap ++ literal "import"]
  | .cpp => [
      atLine "#include" ++ blanks ++ [.one fun c => c == '<' || c == '"',
        .one fun c => isWordChar c || c == '+' || c == '.'],
      wordStart "namespace" ++ gap ++ name ++ blanks ++ literal "\x7b",
      wordStart "class" ++ gap ++ name ++ anything ++ literal ":",
      wordStart "template" ++ blanks ++ literal "<" ++ blanks ++ name ++ blanks ++ literal ">"]
  | .js => [
      wordStart "function" ++ gap ++ name ++ blanks ++ literal "(",
      wordStart "const" ++ gap ++ name ++ blanks ++ literal "=",
      wordStart "=>" ++ blanks ++ literal "\x7b",
      wordStart "import" ++ gap ++ anything ++ gap ++ literal "from" ++ gap,
      literal "export" ++ gap]

def weight (s : String) (l : Language) : Nat := Pattern.countAll l.signs s

/-- The language whose signs occur most often, the first one of several; `none` without a sign. -/
def ofText? (s : String) : Option Language :=
  (all.foldl (fun (best : Option Language × Nat) l =>
    let n := weight s l
    if best.2 < n then (some l, n) else best) (none, 0)).1

/-- The start of a text up to a place, which is counted from the end if it is negative. -/
def startOf (upTo : Int) (s : String) : String :=
  let cs := s.toList
  String.ofList (cs.take (if upTo < 0 then cs.length - upTo.natAbs else upTo.toNat))

def sampleSize : Int := 5000

def ofContent? (files : Files) (name : String) (sample : Int) : Option Language :=
  match files.lenientText (Path.ofString name) with
  | .error _ => none
  | .ok s => ofText? (startOf sample s)

def detect (files : Files) (name : String) : Option Language :=
  match ofExtension? name with
  | some l => some l
  | none => ofContent? files name sampleSize

end Language

end Workbench.Survey
