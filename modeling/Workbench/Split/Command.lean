import Workbench.Decimal.Notation
import Workbench.Split.Sections
import Workbench.World.Usage

/-!
# The splitting tool

Splits a source file that is over the limit into parts, which go into a folder beside it, one file
for each part.
-/

namespace Workbench.Split

open Survey (Language)
open Session

inductive Fault where
  | file (fault : FileFault)
  | zeroLimit
deriving DecidableEq, Repr

/-- The extension of the parts; where the language has several, the file's own. -/
def partExtension (language : Language) (source : Path) : String :=
  match language with
  | .rust => ".rs"
  | .python => ".py"
  | .cpp | .js => source.suffix

def partName (language : Language) (source : Path) (number : Nat) : String :=
  source.stem ++ "_part" ++ Decimal.digitText number ++ partExtension language source

def partText (lines : List String) : String := String.intercalate "\n" lines ++ "\n"

/-- Writes parts one after the other, from a number on. Lines that were read from a file hold whole
characters only, so each of them has its bytes. -/
def writeParts (language : Language) (source folder : Path) :
    Nat → List (List String) → Session Fault Unit
  | _, [] => return ()
  | number, part :: rest => do
    let path := folder.child (partName language source number)
    change .file (.step (·.write path.toString (Utf8.encode (partText part))))
    writeParts language source folder (number + 1) rest

def splitFile (language : Language) (source : Path) (limit : Int) (folderName : String) :
    Session Fault Unit := do
  if (← demand .file ((← files).present? source)).isNone then
    say "File not found."
    exit 1
  let lines ← demand .file (Survey.sourceLines (← files) source)
  if (lines.length : Int) ≤ limit then say "File is already within limit."
  else
    let found ← demand (fun _ => Fault.zeroLimit) (parts (.of language) limit lines)
    let folder := source.parent.join folderName
    change .file (.ensure folder)
    writeParts language source folder 1 found
    say ("Generated " ++ Decimal.digitText found.length ++ " parts in " ++ folder.toString)

def presentation : Language → String × String
  | .rust => ("Rust", "Rust source file")
  | .python => ("Python", "Python source file")
  | .cpp => ("C++", "C++ source/header file")
  | .js => ("JS/TS", "JS/TS source file")

def commandLine (language : Language) : CommandLine.Grammar := {
  program := language.word ++ "_modularizer.py"
  description := (presentation language).1 ++ " modularizer"
  operands := [⟨"file_path", (presentation language).2⟩]
  options := [⟨"--max-lines", .whole, false, ""⟩, ⟨"--output-dir", .text, false, ""⟩] }

def run (language : Language) (args : List String) : Session Fault Unit := do
  let given ← given (commandLine language) args
  let limit := ((given.value? "--max-lines").bind CommandLine.int?).getD defaultLimit
  splitFile language (Path.ofString (given.operand 0)) limit
    ((given.value? "--output-dir").getD "refactored")

end Workbench.Split
