import Workbench.Crate.Diagnostics
import Workbench.Crate.Manifest
import Workbench.Data.JsonWriter
import Workbench.World.Reading
import Workbench.World.Session

/-!
# The Rust checking tool

Puts a piece of Rust code into a package of its own, has it checked, and shows the errors, or the
formatted code if there are none.
-/

namespace Workbench.Crate

open Session

inductive CheckReply where
  | printed (output : String)
  | timeout
  | missing
deriving DecidableEq, Repr

structure Toolchain where
  check : CheckReply
  -- what the formatter puts into a file, if it does
  formatted : Option String
  temporary : String
  limits : Json.Limits

inductive Fault where
  | file (fault : FileFault)
  | text (fault : Utf8.Fault)
  -- an error is shown by something that is no text
  | notText

def Toolchain.cache (tools : Toolchain) : String :=
  PathName.join tools.temporary "trae_rust_auto_fixer_cache"

def Toolchain.package (tools : Toolchain) : String := PathName.join tools.cache "project"

def Toolchain.manifestFile (tools : Toolchain) : String := PathName.join tools.package "Cargo.toml"

def Toolchain.sourceFile (tools : Toolchain) : String :=
  PathName.join (PathName.join tools.package "src") "main.rs"

def readText (name : String) : Session Fault String := do
  match (← files).strictText name with
  | .ok s => return s
  | .error (.file f) => fail (.file f)
  | .error (.text f) => fail (.text f)

def joinErrors (errors : List Value) : Session Fault String := do
  let texts ← errors.mapM fun v => match v with
    | .str s => pure s
    | _ => fail .notText
  return String.intercalate "\n" texts

def writePackage (tools : Toolchain) (code : String) : Session Fault Unit := do
  change .file (.makeAll true tools.cache)
  change .file (.makeAll true (PathName.join tools.package "src"))
  change .file (.writeText tools.manifestFile (manifest (dependencies code)))
  change .file (.writeText tools.sourceFile code)

def check (tools : Toolchain) (code : String) : Session Fault String := do
  writePackage tools code
  match tools.check with
  | .timeout => return "ERROR: Compilation timed out."
  | .missing => return "\x7b\"error\": \"Failed to run cargo: " ++
      "[Errno 2] No such file or directory: 'cargo'\"\x7d"
  | .printed output =>
    let errors := errorsIn tools.limits output
    if errors.isEmpty then
      if let some text := tools.formatted then
        change .file (.writeText tools.sourceFile text)
      return "SUCCESS\n" ++ (← readText tools.sourceFile)
    else joinErrors errors

def run (tools : Toolchain) : List String → Session Fault Unit
  | [] => do
    say "Usage: python cargo_runner.py <file_path_or_code_string>"
    exit 1
  | arg :: _ => do
    let code ← if (← files).isFile arg then readText arg else pure arg
    say (← check tools code)

end Workbench.Crate
