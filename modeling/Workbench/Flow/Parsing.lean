import Workbench.Syntax.Tree
import Workbench.World.Complaint
import Workbench.World.Session

/-!
# Source files

Source files for flow graphs: which language a file name stands for, and how a file is read and
parsed. The parser is a parameter; it may lack a grammar, and then it parses nothing.
-/

namespace Workbench.Flow

/-- How blocks are written: by indentation, as in Python, or in braces, as in Rust. -/
inductive Dialect where
  | suites
  | braces
deriving DecidableEq, Repr

namespace Dialect

def extension : Dialect → String
  | .suites => "py"
  | .braces => "rs"

def ofExtension? (ext : String) : Option Dialect :=
  if ext = "rs" then some .braces else if ext = "py" then some .suites else none

def functionKind : Dialect → String
  | .suites => "function_definition"
  | .braces => "function_item"

end Dialect

def functions (d : Dialect) (t : Tree) : List Tree := t.ofKind d.functionKind

/-- What follows the last point of a file name; all of it if there is none. -/
def extensionOf (name : String) : String :=
  String.ofList ((name.toList.splitOn '.').getLast?.getD [])

structure Parser where
  -- the first language whose grammar cannot be loaded, and why
  lacks? : Option (Dialect × String)
  parse : Dialect → Bytes → Tree

inductive ParseFault where
  | noGrammar (text : String)
  | unsupported (extension : String)
  | file (name : String) (fault : FileFault)
deriving DecidableEq, Repr

def ParseFault.message : ParseFault → String
  | .noGrammar text => text
  | .unsupported ext => "Unsupported file extension: " ++ ext
  | .file name f => f.message name

structure Source where
  dialect : Dialect
  code : Bytes
  tree : Tree

/-- Reads and parses a source file. The notes are printed even if that fails. -/
def Parser.load (parser : Parser) (files : Files) (name : String) :
    Notes × Except ParseFault Source :=
  match parser.lacks? with
  | some (dialect, text) =>
    (["Error initializing " ++ dialect.extension ++ " parser: " ++ text], .error (.noGrammar text))
  | none =>
    match Dialect.ofExtension? (extensionOf name) with
    | none => ([], .error (.unsupported (extensionOf name)))
    | some dialect =>
      match files.read name with
      | .error f => ([], .error (.file name f))
      | .ok code =>
        let tree := parser.parse dialect code
        let notes := if tree.hasKind "ERROR" then
          ["Warning: Syntax errors detected in " ++ name ++ ". Analysis might be partial."]
          else []
        (notes, .ok ⟨dialect, code, tree⟩)

end Workbench.Flow
