import Std.Time
import Workbench.Crate.Command
import Workbench.Data.Yaml.Reader
import Workbench.Extraction.Command
import Workbench.Flow.Command
import Workbench.Linear.Command
import Workbench.Split.Batch

/-!
# The command line

`workbench <tool> <arguments>` runs one of the tools on the files below the current folder. Other
programs and servers are out of reach here, so the tools are told that they are missing.
-/

namespace Workbench.Main

/-! ## Files -/

partial def load (place : Place) (entry : IO.FS.DirEntry) : IO (List (Place × Item)) := do
  let place := place ++ [entry.fileName]
  if ← entry.path.isDir then
    let inside ← entry.path.readDir
    return (place, .folder) :: (← inside.toList.mapM (load place)).flatten
  else
    return [(place, .file (← IO.FS.readBinFile entry.path).toList)]

def loadFiles : IO Files := do
  let here ← IO.currentDir
  return ⟨here.toString, (← (← here.readDir).toList.mapM (load [])).flatten⟩

def saveFiles (before after : Files) : IO Unit := do
  for (place, item) in after.items do
    let name := String.intercalate "/" place
    unless before.item? place == some item do
      match item with
      | .folder => IO.FS.createDirAll name
      | .file content => IO.FS.writeBinFile name ⟨content.toArray⟩

/-! ## Surroundings -/

def now : IO Moment := do
  let t ← Std.Time.PlainDateTime.now
  return ⟨t.date.year.toNat, t.date.month.val.toNat, t.date.day.val.toNat, t.time.hour.val.toNat,
    t.time.minute.val.toNat, t.time.second.val.toNat⟩

def setting (name missing : String) : IO String := return (← IO.getEnv name).getD missing

def extraction : IO Extraction.Surroundings := do
  let config : Extraction.Config := {
    extractionKey := ← setting "EXTRACTION_API_KEY" ""
    extractionUrl := ← setting "EXTRACTION_BASE_URL" "https://api.openai.com/v1"
    model := ← setting "LLM_MODEL" "gpt-4o"
    pdfKey := ← setting "MINERU_API_KEY" ""
    pdfUrl := ← setting "MINERU_BASE_URL" "https://api.mineru.com/v1" }
  let offline : Reply := .failed ⟨true, "no connection"⟩
  return ⟨config, fun _ _ _ => offline, offline⟩

def survey : IO Survey.Surroundings :=
  return ⟨fun _ => ⟨.noGit, .missing⟩, fun _ => none, .none, ← now⟩

def flow : Flow.Toolchain where
  parser := ⟨some (.braces, "no grammar"), fun _ _ => .node "module" 0 0 none []⟩
  dot := .missing
  home := ⟨⟨"", []⟩, "", Yaml.read⟩

def crate : Crate.Toolchain := ⟨.missing, none, "", .none⟩

/-! ## Tools -/

abbrev Ending := Desk × UInt32

def ending {ε : Type} (x : Session ε Unit) (files : Files) : Ending :=
  match x.on files with
  | (.ok _, desk) => (desk, 0)
  | (.error (.exit code), desk) => (desk, code.toUInt32)
  | (.error (.fault _), desk) => (desk, 1)

def tool? (name : String) (args : List String) : IO (Option (Files → Ending)) := do
  let around ← survey
  match name with
  | "flow" => return some (ending (Flow.Command.run flow args))
  | "language" => return some (ending (Survey.Command.language args))
  | "size" => return some (ending (Survey.Command.size args))
  | "complexity" => return some (ending (Survey.Command.complexity around args))
  | "gate" => return some (ending (Survey.Command.gate around args))
  | "analyze" => return some (ending (Survey.Command.analyzer around args))
  | "report" => return some (ending (Survey.Command.report around args))
  | "split-rust" => return some (ending (Split.run .rust args))
  | "split-python" => return some (ending (Split.run .python args))
  | "split-cpp" => return some (ending (Split.run .cpp args))
  | "split-js" => return some (ending (Split.run .js args))
  | "split-batch" => return some (ending (Split.Batch.run around "." args))
  | "extract" => return some (ending (Extraction.run (← extraction) args))
  | "check-rust" => return some (ending (Crate.run crate args))
  | "matrix" => return some (ending (Linear.run .none args))
  | _ => return none

end Workbench.Main

def main (args : List String) : IO UInt32 := do
  match args with
  | [] =>
    IO.eprintln "usage: workbench <tool> <arguments>"
    return 2
  | name :: rest =>
    match ← Workbench.Main.tool? name rest with
    | none =>
      IO.eprintln ("no such tool: " ++ name)
      return 2
    | some run =>
      let files ← Workbench.Main.loadFiles
      let (desk, code) := run files
      Workbench.Main.saveFiles files desk.files
      IO.print desk.out
      IO.eprint desk.complaints
      return code
