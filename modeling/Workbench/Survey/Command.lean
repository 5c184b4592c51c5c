import Workbench.Data.JsonReader
import Workbench.Survey.Analysis
import Workbench.Survey.Report
import Workbench.Text.Find
import Workbench.World.Git
import Workbench.World.Usage

/-!
# The survey tools

Small tools that answer one question about a file, the analyzer that surveys a folder and keeps its
analysis in a file, and the tool that turns such an analysis into a report.
-/

namespace Workbench.Survey

structure Surroundings where
  -- what git answers in a folder; one that is not there counts as a place without git
  git : String → Git
  linters : Linters
  limits : Json.Limits
  now : Moment

inductive Fault where
  | file (fault : FileFault)
  | text (fault : Utf8.Fault)
  | json (fault : Json.Fault)
  | shape (fault : Value.ShapeFault)

namespace Command

open Session

/-! ## Questions about one file -/

def language : List String → Session Fault Unit
  | [] => do
    say "Usage: python language_detector.py <file_path>"
    exit 1
  | name :: _ => do
    say ("File: " ++ name)
    say ("Language: " ++ Language.label (Language.detect (← files) name))

def size : List String → Session Fault Unit
  | [] => do
    say "Usage: python line_counter.py <file_path>"
    exit 1
  | name :: _ => do
    say ("File: " ++ name)
    say ("Language: " ++ kindWord name)
    say ("Lines: " ++ Decimal.digitText (← demand .file (countLines (← files) name)))

def complexityValue (c : Complexity) : Value := .dict [
  ("cyclomatic", .int c.branches), ("function_count", .int c.functions),
  ("nesting_depth", .int c.nesting),
  ("raw_message", .str (if c.linted then "Lint executed" else "Lint skipped"))]

def complexity (around : Surroundings) : List String → Session Fault Unit
  | name :: language :: _ => do
    let c ← demand .file
      (fileComplexity (← files) around.linters (Language.ofWord? language) name)
    say (complexityValue c).display
  | _ => do
    say "Usage: python complexity_detector.py <file_path> <language>"
    exit 1

def gate (around : Surroundings) (args : List String) : Session Fault Unit :=
  (around.git (args.headD ".")).gate

/-! ## The analyzer -/

def analyzerLine : CommandLine.Grammar := {
  program := "main_analyzer.py"
  description := "Analyze code for modularization"
  operands := []
  options := [
    ⟨"--path", .text, false, "Scan path"⟩,
    ⟨"--recursive", .flag, false, "Recursive scan"⟩,
    ⟨"--exclude", .text, false, "Exclude pattern"⟩,
    ⟨"--no-complexity", .flag, false, "Skip complexity"⟩,
    ⟨"--skip-git", .flag, false, "Skip Git check"⟩,
    ⟨"--output-dir", .text, false, "Output directory"⟩] }

def ownPlaces : List String :=
  ["code-shorters\\scripts", "code-shorters\\test_files", "code-shorters/scripts",
    "code-shorters/test_files"]

def contains (part s : String) : Bool := Text.occursIn part.toList s.toList

def targets (here : Files) (path : String) (deep : Bool) (exclude : String) :
    Except FileFault (List String) := do
  let found := (← scan here path deep).map Path.toString
  let found := found.filter fun name => !ownPlaces.any fun place => contains place name
  return if exclude = "" then found else found.filter fun name => !contains exclude name

def keep (folder : Path) (name text : String) : Session Fault Path := do
  change .file (.ensure folder)
  let path := folder.join name
  change .file (.writeText path.toString text)
  return path

def analyzer (around : Surroundings) (args : List String) : Session Fault Unit := do
  let given ← given analyzerLine args
  let path := (given.value? "--path").getD "."
  unless given.has "--skip-git" do (around.git path).gate
  let exclude := (given.value? "--exclude").getD ""
  let names ← demand .file (targets (← files) path (given.has "--recursive") exclude)
  let analysis ← demand .file
    (analyze (← files) around.linters around.now (!given.has "--no-complexity") names)
  let folder := Path.ofString ((given.value? "--output-dir").getD "reports")
  let kept ← keep folder ("analysis_" ++ around.now.tag ++ ".json")
    (Json.render .indented analysis.toValue)
  say ("Report saved: " ++ kept.toString)

/-! ## Reports -/

def readValue (limits : Json.Limits) (name : String) : Session Fault Value := do
  match (← files).strictText name with
  | .error (.file f) => fail (.file f)
  | .error (.text f) => fail (.text f)
  | .ok s => demand .json (Json.read limits s)

def saveReport (now : Moment) (analysis : Value) (name form : String) : Session Fault Unit := do
  let text ← demand .shape (reportText now analysis form)
  let path := Path.ofString name
  change .file (.ensure path.parent)
  change .file (.writeText path.toString text)

def report (around : Surroundings) : List String → Session Fault Unit
  | [] => do
    say "Usage: python report_generator.py <analysis.json> [markdown|html]"
    exit 1
  | name :: rest => do
    let form := rest.headD "markdown"
    let analysis ← readValue around.limits name
    let target := ((Path.ofString "reports").join
      ("refactor_report_" ++ around.now.tag ++ "." ++ form)).toString
    saveReport around.now analysis target form
    say ("Report saved: " ++ target)

end Command

end Workbench.Survey
