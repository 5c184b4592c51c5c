import Workbench.Flow.Atlas
import Workbench.Flow.Lisp
import Workbench.Flow.Dot
import Workbench.World.Usage

/-!
# The flow graph tool

Draws the flow graph of a function, of one function in each file of a project, or the atlas of a
project, and writes it as nested lists, as a picture, or both.
-/

namespace Workbench.Flow

inductive DotReply where
  | missing
  | timeout
  | fail
  | ok
deriving DecidableEq, Repr

structure Toolchain where
  parser : Parser
  dot : DotReply
  home : Home

inductive Fault where
  | draw (fault : DrawFault)
  | graph (fault : GraphFault)
  | file (fault : FileFault)
  -- a function without a name was asked for by name
  | noName
deriving DecidableEq, Repr

inductive Format where
  | lisp
  | picture
  | both
deriving DecidableEq, Repr

def Format.ofWord? (s : String) : Option Format :=
  if s = "svg" then some .picture
  else if s = "dsl" then some .lisp
  else if s = "both" then some .both
  else none

structure Request where
  path : String
  format : Format
  focus : Option String
  pictureFolder : Option String
  unified : Bool

def commandLine : CommandLine.Grammar := {
  program := "main.py"
  description := "Code Logic Analyzer: Unassailable Logic Visualization"
  operands := [⟨"file", "Path to source file or directory"⟩]
  options := [
    ⟨"--format", .choice ["svg", "dsl", "both"], false, "Output format"⟩,
    ⟨"--focus", .text, false, "Focus on specific function (by name)"⟩,
    ⟨"--svg-dir", .text, false, "Directory to save the generated SVG file"⟩,
    ⟨"--config", .text, false, "Path to logic_config.yaml"⟩,
    ⟨"--unified", .flag, false, "Generate a unified project graph"⟩] }

def filled (v : Option String) : Option String := v.filter (· != "")

def Request.ofGiven (g : CommandLine.Given) : Request :=
  { path := g.operand 0
    format := ((g.value? "--format").bind Format.ofWord?).getD .both
    focus := filled (g.value? "--focus")
    pictureFolder := filled (g.value? "--svg-dir")
    unified := g.has "--unified" }

namespace Command

open Session

/-! ## Running `dot` -/

def dotCommand (input output : String) : String :=
  "['dot', '-Tsvg', " ++ Text.quoted input ++ ", '-o', " ++ Text.quoted output ++ "]"

def dotComplaint (reply : DotReply) (input output : String) : String :=
  match reply with
  | .missing => "[Errno 2] No such file or directory: 'dot'"
  | .timeout => "Command '" ++ dotCommand input output ++ "' timed out after None seconds"
  | .fail => "Command '" ++ dotCommand input output ++ "' returned non-zero exit status 1."
  | .ok => ""

/-! ## Output -/

def ensureFolder (name : String) : Session Fault Unit := do
  unless (← files).has name do change .file (.makeAll false name)

def writeText (name text : String) : Session Fault Unit := change .file (.writeText name text)

/-- Where the picture of a file goes: into the folder for pictures, at the file's place within the
project, or beside the other output. -/
def pictureFolder (request : Request) (project : Option String) (file folder : String) : String :=
  match request.pictureFolder with
  | none => folder
  | some top =>
    match project with
    | none => top
    | some root => PathName.join top (PathName.between root (PathName.folder file))

/-! ## Single files -/

def choose (request : Request) (source : Source) : List Tree → Session Fault Tree
  | [] => do
    match request.focus with
    | some name => say s!"[!] Function '{name}' not found."; exit 1
    | none => say "[!] No functions found in file."; exit 0
  | t :: ts =>
    match request.focus with
    | none => do
      say "[*] No focus specified, analyzing first function found."
      return t
    | some name => do
      match t.child? "name" with
      | none => fail .noName
      | some n =>
        match n.text source.code with
        | .error f => fail (.draw (.badText f))
        | .ok text => if text = name then return t else choose request source ts

def outputFolder (file : String) : String := PathName.withoutExtension file ++ "_logic"

def outputName (file ending : String) : String :=
  PathName.join (outputFolder file) (PathName.base (PathName.withoutExtension file) ++ ending)

def listName (file : String) : String := outputName file ".logic.lisp"

/-- Writes a graph as nested lists. Its labels are taken from the source, so each of their characters
has its bytes. -/
def listGraph (file : String) (graph : Graph) : Session Fault Unit := do
  let text ← demand .graph graph.lisp
  change .file (.step (·.write (listName file) (Utf8.encode text)))
  say s!"[+] Generated Logic DSL: {listName file}"

def makePicture (dot : DotReply) (input output : String) : Session Fault Unit :=
  match dot with
  | .ok => say s!"[+] Generated Visualization: {output}"
  | .missing => say s!"[!] Graphviz 'dot' command not found. Saved .dot file only: {input}"
  | reply => say ("[!] Graphviz generation failed: " ++ dotComplaint reply input output)

def depictGraph (tools : Toolchain) (request : Request) (project : Option String) (file : String)
    (graph : Graph) : Session Fault Unit := do
  let text ← demand .graph graph.dot
  let input := outputName file ".logic.dot"
  let pictures := pictureFolder request project file (outputFolder file)
  if request.pictureFolder.isSome then ensureFolder pictures
  writeText input text
  makePicture tools.dot input
    (PathName.join pictures (PathName.base (PathName.withoutExtension file) ++ ".logic.svg"))

def processFile (tools : Toolchain) (settings : Value) (request : Request)
    (project : Option String) (file : String) : Session Fault Unit := do
  say s!"[*] Analyzing {file}..."
  let (notes, source) := tools.parser.load (← files) file
  notes.forM say
  match source with
  | .error f =>
    say ("[!] AST Parsing Failed: " ++ f.message)
    say "    Ensure tree-sitter, tree-sitter-rust, and tree-sitter-python are installed."
    exit 1
  | .ok source =>
    let found := functions source.dialect source.tree
    if found.isEmpty then
      say "[!] No functions found in file."
      exit 0
    let target ← choose request source found
    let graph ← demand .draw (graphOf source.dialect source.code (some settings) target)
    ensureFolder (outputFolder file)
    if request.format ≠ .picture then listGraph file graph
    if request.format ≠ .lisp then depictGraph tools request project file graph

/-! ## Projects -/

def indexAll (tools : Toolchain) (settings : Value) : Index → List String → Session Fault Index
  | index, [] => return index
  | index, file :: rest => do
    let (notes, source) := tools.parser.load (← files) file
    notes.forM say
    match source with
    | .error _ => indexAll tools settings index rest
    | .ok source =>
      let (index, failure) := index.add (some settings) ⟨file, source⟩
      if let some f := failure then say ("[!] Failed to index " ++ file ++ ": " ++ f.message)
      indexAll tools settings index rest

def processProject (tools : Toolchain) (settings : Value) (request : Request) (project : String)
    (targets : List String) : Session Fault Unit := do
  say "[*] Starting Phase A: Symbol Indexing..."
  let index ← indexAll tools settings .empty targets
  say "[*] Starting Phase B: Graph Fusion..."
  say "[*] Starting Phase C: Cross-Linking..."
  let atlas := index.atlas project
  say ("[*] Atlas Generated: " ++ Decimal.digitText atlas.graph.vertices.length ++ " nodes, " ++
    Decimal.digitText atlas.links ++ " cross-links.")
  let folder := request.pictureFolder.getD "atlas_output"
  ensureFolder folder
  if request.format ≠ .lisp then
    let input := PathName.join folder "project_atlas.dot"
    let output := PathName.join folder "project_atlas.svg"
    writeText input (← demand .graph atlas.graph.dot)
    match tools.dot with
    | .ok => say s!"[+] Atlas SVG saved to: {output}"
    | reply => say ("[!] Graphviz failed: " ++ dotComplaint reply input output)

/-- The source files below a folder: its own first, then those of each folder in it. -/
def sourcesBelow (files : Files) : Nat → String → Place → List String
  | 0, _, _ => []
  | depth + 1, path, place =>
    let inside := files.entries place
    let own := inside.filterMap fun (name, item) =>
      match item with
      | .folder => none
      | .file _ =>
        if [".rs", ".py"].any fun ext => ext.toList.reverse.isPrefixOf name.toList.reverse then
          some (PathName.join path name)
        else none
    own ++ inside.flatMap fun (name, item) =>
      match item with
      | .folder => sourcesBelow files depth (PathName.join path name) (place ++ [name])
      | .file _ => []

def fullName (files : Files) (name : String) : String := PathName.normal (PathName.join files.root name)

def sources (files : Files) (path : String) : List String :=
  sourcesBelow files (files.items.length + 1) path ((files.locate path).toOption.getD [])

def process (tools : Toolchain) (settings : Value) (request : Request) : Session Fault Unit := do
  let here ← files
  let path := fullName here request.path
  match here.find? path with
  | none =>
    say s!"Error: Path not found: {path}"
    exit 1
  | some (.file _) => processFile tools settings request none path
  | some .folder =>
    let targets := sources here path
    say ("[*] Project Mode: Found " ++ Decimal.digitText targets.length ++ " source files in " ++
      path)
    if request.unified && 1 < targets.length then
      processProject tools settings request path targets
    else
      targets.forM (processFile tools settings request (some path))

/-- The settings that a run goes by, once they were read under the default name. They are asked for
again if the command line names another file. -/
def reread (tools : Toolchain) (settings : Value) (cell : Settings.Cell)
    (given : CommandLine.Given) : Session Fault Value := do
  let name := (given.value? "--config").getD Settings.defaultName
  if name = Settings.defaultName then return settings
  let (notes, settings, _) := cell.read tools.home (← files) name
  notes.forM say
  return settings

def run (tools : Toolchain) (args : List String) : Session Fault Unit := do
  let (notes, settings, cell) :=
    Settings.Cell.fresh.read tools.home (← files) Settings.defaultName
  notes.forM say
  let given ← given commandLine args
  process tools (← reread tools settings cell given) (.ofGiven given)

end Command

end Workbench.Flow
