import Workbench.Extraction.Chunks
import Workbench.Extraction.Cleaning
import Workbench.Extraction.Request
import Workbench.Text.Gbk
import Workbench.Text.Lines
import Workbench.World.Complaint
import Workbench.World.Usage

/-!
# The extraction tool

Reads a document, or has it turned into text by a server, cleans it, cuts it into chunks, has the
mathematics of each chunk extracted, and writes what comes back into one file.
-/

namespace Workbench.Extraction

open Session

inductive Fault where
  | noKey
  | file (fault : FileFault)
  -- a document was turned into something that is no text
  | notText
  | noFolder
deriving DecidableEq, Repr

def Fault.message? : Fault → Option String
  | .noKey => some "Configuration Error: 'EXTRACTION_API_KEY' environment variable is missing."
  | _ => none

/-- What the tool finds around it: a server's replies to chunks and to a PDF document. -/
structure Surroundings where
  config : Config
  server : Server
  pdf : Reply

/-! ## Documents -/

def documentText (content : Bytes) : String :=
  Text.plainNewlines (match Utf8.decode content with
    | .ok s => s
    | .error _ =>
      match Gbk.decode? content with
      | some s => s
      | none => Latin1.decode content)

inductive PdfFault where
  | noKey
  -- the conversion broke off; the text tells how
  | broken (text : String)

def PdfFault.message : PdfFault → String
  | .noKey => "未设定好pdf转化为md的工具 (Missing MINERU_API_KEY)"
  | .broken text => "PDF conversion failed: " ++ text

def kindName : Value → String
  | .null => "NoneType"
  | .bool _ => "bool"
  | .int _ => "int"
  | .float _ => "float"
  | .str _ => "str"
  | .list _ => "list"
  | .dict _ => "dict"

/-- The text in a reply to a PDF document. An error of the request is told of in its place. -/
def pdfContent (reply : Reply) : Except PdfFault Value :=
  match reply.body with
  | .ok (.dict fields) => .ok ((Fields.get? "markdown" fields).getD (.str ""))
  | .ok v => .error (.broken ("'" ++ kindName v ++ "' object has no attribute 'get'"))
  | .error f =>
    if f.ofRequest then
      .ok (.str ("PDF conversion error: " ++ f.text ++
        ". Please check MINERU_BASE_URL and MINERU_API_KEY."))
    else .error (.broken f.text)

def convertPdf (around : Surroundings) (path : Path) : Session Fault (Except PdfFault Value) := do
  if around.config.pdfKey = "" then return .error .noKey
  match (← files).read path.toString with
  | .error f => return .error (.broken (f.message path.toString))
  | .ok _ =>
    note [⟨around.config.pdfUrl ++ "/pdf_to_markdown", "Bearer " ++ around.config.pdfKey, []⟩] 0
    return pdfContent around.pdf

/-! ## The pipeline -/

inductive Kind where
  | pdf
  | text
deriving DecidableEq, Repr

def Kind.ofPath? (path : Path) : Option Kind :=
  let ext := String.ofList (path.suffix.toList.map Char.toLower)
  if ext = ".pdf" then some .pdf
  else if [".md", ".tex", ".txt"].contains ext then some .text
  else none

/-- Cleans a document, extracts its mathematics and writes them; tells what came of it. `key` is the
key for the extraction server at that time. -/
def extractInto (around : Surroundings) (key : String) (path : Path) (folderName : Option String)
    (content : String) : Session Fault String := do
  let cleaned := clean content.toList
  let parts := (chunks chunkLimit cleaned).map String.ofList
  if key = "" then return "Extraction failed: Missing EXTRACTION_API_KEY"
  let extracted ← extractAll around.config around.server parts
  match folderName with
  | none => fail .noFolder
  | some name =>
    let folder := Path.ofString name
    change .file (.ensure folder)
    let target := folder.child (path.stem ++ "_extracted.md")
    change .file (.writeText target.toString extracted)
    return target.toString

/-- Works through one document and tells what came of it. The folder for the output is not looked
at before there is something to write. -/
def process (around : Surroundings) (key name : String) (folderName : Option String) :
    Session Fault String := do
  let path := Path.ofString name
  if (← demand .file ((← files).present? path)).isNone then
    return "Error: File " ++ path.toString ++ " not found."
  match Kind.ofPath? path with
  | none => return "不支持当前文件格式"
  | some .text =>
    let content ← demand .file ((← files).read path.toString)
    extractInto around key path folderName (documentText content)
  | some .pdf =>
    match ← convertPdf around path with
    | .error f => return "未设定好pdf转化为md的工具: " ++ f.message
    | .ok (.str content) => extractInto around key path folderName content
    | .ok _ => fail .notText

def requireKey (config : Config) : Session Fault Unit := do
  if config.extractionKey = "" then fail .noKey

def commandLine : CommandLine.Grammar := {
  program := "processor.py"
  description := "Extract math content from documents."
  operands := [
    ⟨"file_path", "Path to the source file (pdf/md/tex/txt)"⟩,
    ⟨"output_dir", "Directory to save the extracted markdown"⟩]
  options := [] }

def run (around : Surroundings) (args : List String) : Session Fault Unit := do
  let given ← given commandLine args
  requireKey around.config
  say (← process around around.config.extractionKey (given.operand 0) (given.operand? 1))

end Workbench.Extraction
