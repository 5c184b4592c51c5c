import Workbench.Split.Command
import Workbench.Survey.Command

/-!
# Splitting in batches

Runs the splitting tools over the files that an analysis lists, keeps the outcomes in a file, and
has a report of the analysis written.
-/

namespace Workbench.Split.Batch

open Survey (Language)
open Session

inductive Fault where
  | survey (fault : Survey.Fault)
  -- a language is given by a list or by fields
  | badLanguage
  -- a path is given by something other than a text
  | badPath

def toolName (home : String) (language : Language) : String :=
  home ++ "/" ++ language.word ++ "-shorter/scripts/" ++ language.word ++ "_modularizer.py"

/-- What a tool that ran apart came to: whether it went well, and what it had to say. Complaints
count only if nothing was printed. -/
def outcome (run : Aside Split.Fault Unit) : Bool × String :=
  let said := [run.out, run.complaints].map fun s =>
    String.ofList (Text.strip (Text.unifyNewlines s.toList))
  let fine := match run.outcome with
    | .ok _ => true
    | .error (.exit code) => code == 0
    | .error (.fault _) => false
  (fine, (said.find? (· != "")).getD "No output")

def checkArgument (arg : String) : Except FileFault Unit :=
  match Files.checkName arg with
  | .error .unencodable => .error .unencodable
  | .error .badName => .error .badName
  | _ => .ok ()

def splitWith (home language path : String) : Session Fault Fields := do
  match Language.ofWord? language with
  | none => return [("file_path", .str path), ("language", .str language),
      ("status", .str "failed"), ("message", .str "Subskill script not found")]
  | some l =>
    demand (fun f => Fault.survey (.file f)) (checkArgument path)
    let (fine, message) := outcome (← apart (Split.run l [path]))
    return [("file_path", .str path), ("language", .str language),
      ("status", .str (if fine then "success" else "failed")), ("message", .str message),
      ("script", .str (toolName home l))]

def supported? : Value → Except Fault (Option String)
  | .str s => .ok ((Language.ofWord? s).map fun _ => s)
  | .list _ | .dict _ => .error .badLanguage
  | _ => .ok none

def splitTarget (home : String) (target : Value) : Session Fault Value := do
  let ask := fun key missing =>
    demand (fun f => Fault.survey (.shape f)) (target.fieldOr key missing)
  let language ← ask "language" (.str "unknown")
  let path ← ask "path" .null
  match ← demand id (supported? language) with
  | none => return .dict [("file_path", path), ("language", language), ("status", .str "skipped"),
      ("message", .str "Unsupported language")]
  | some word =>
    match path with
    | .str name =>
      let fields ← splitWith home word name
      return .dict (fields ++ [("original_lines", ← ask "lines" (.int 0))])
    | _ => fail .badPath

def targets (analysis : Value) (withWarnings : Bool) : Except Value.ShapeFault (List Value) := do
  let critical ← (← analysis.fieldOr "critical_files" (.list [])).members
  if withWarnings then
    return critical ++ (← (← analysis.fieldOr "warning_files" (.list [])).members)
  else return critical

def splitAll (home : String) (analysis : Value) (withWarnings : Bool) :
    Session Fault (List Value) := do
  (← demand (fun f => Fault.survey (.shape f)) (targets analysis withWarnings)).mapM
    (splitTarget home)

def commandLine : CommandLine.Grammar := {
  program := "batch_refactor.py"
  description := "Batch refactor"
  operands := [⟨"analysis_file", "Analysis JSON file"⟩]
  options := [
    ⟨"--include-warning", .flag, false, "Include warning files"⟩,
    ⟨"--skip-git", .flag, false, "Skip Git check"⟩] }

def survey {α : Type} (x : Session Survey.Fault α) : Session Fault α := do
  let run ← apart x
  print run.out
  match run.outcome with
  | .ok a => return a
  | .error (.exit code) => exit code
  | .error (.fault f) => fail (.survey f)

def run (around : Survey.Surroundings) (home : String) (args : List String) :
    Session Fault Unit := do
  let given ← given commandLine args
  let path := Path.ofString (given.operand 0)
  let analysis ← survey (Survey.Command.readValue around.limits path.toString)
  unless given.has "--skip-git" do (around.git path.parent.toString).gate
  let results ← splitAll home analysis (given.has "--include-warning")
  let kept ← survey (Survey.Command.keep (Path.ofString "reports") "batch_refactor_results.json"
    (Json.render .indented (.list results)))
  say ("Batch results saved: " ++ kept.toString)
  let report ← apart (Survey.Command.report around [path.toString, "markdown"])
  print report.out

end Workbench.Split.Batch
