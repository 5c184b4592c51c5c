import Workbench.Text.Pattern

/-!
# Manifests

Guesses the packages that a Rust source file needs from its `use` lines, and writes the manifest of
a package that has them.
-/

namespace Workbench.Crate

/-! ## Dependencies -/

def isNameChar (c : Char) : Bool := c.isAlphanum || c == '_'

open Pattern in
def useLines : List Pattern :=
  ["::", ";"].map fun stop =>
    .lineStart :: blanks ++ literal "use" ++ gap ++ several isNameChar ++ literal stop

def rootOf (line : List Char) : String :=
  let afterUse := (line.dropWhile isBlank).drop 3
  String.ofList ((afterUse.dropWhile isBlank).takeWhile isNameChar)

def ownRoots : List String := ["std", "core", "alloc", "crate", "super", "self"]

def insertName (name : String) : List String → List String
  | [] => [name]
  | n :: r =>
    if name = n then n :: r else if name < n then name :: n :: r else n :: insertName name r

def dependencies (code : String) : List String :=
  let roots := (Pattern.found useLines code.toList).map rootOf
  (roots.filter fun r => !ownRoots.contains r).foldl (fun names r => insertName r names) []

/-! ## The manifest -/

def dependencyLine (name : String) : String :=
  let withFeatures := fun features =>
    name ++ " = \x7b version = \"*\", features = [" ++ features ++ "] \x7d"
  match name with
  | "serde" => withFeatures "\"derive\""
  | "tokio" => withFeatures "\"full\""
  | "reqwest" => withFeatures "\"json\", \"blocking\""
  | "clap" => withFeatures "\"derive\""
  | _ => name ++ " = \"*\""

def manifest (names : List String) : String :=
  "\n    [package]\n    name = \"temp_check\"\n    version = \"0.1.0\"\n" ++
    "    edition = \"2021\"\n    \n    [dependencies]\n    " ++
    String.intercalate "\n" (names.map dependencyLine) ++ "\n    "

end Workbench.Crate
