import Workbench.World.CommandLine
import Workbench.World.Session

/-!
# Usage

How a tool presents its command line: a short form, which wraps where it grows too long for a line,
and a long form with a line or two for each argument. A session that is given a command line shows
the long form on request, and the short one when it has to complain.
-/

namespace Workbench.CommandLine

/-! ## Arguments -/

def Switch.placeholder (o : Switch) : String :=
  match o.shape with
  | .choice words => "\x7b" ++ String.intercalate "," words ++ "\x7d"
  | _ => String.ofList (((o.name.toList.dropWhile (· == '-')).map fun c =>
      if c = '-' then '_' else c.toUpper))

def Switch.form (o : Switch) : List String :=
  match o.shape with
  | .flag => [o.name]
  | _ => [o.name, o.placeholder]

def Switch.parts (o : Switch) : List String :=
  if o.required then o.form else ["[" ++ String.intercalate " " o.form ++ "]"]

/-! ## The short form -/

def lineWidth : Nat := 78

/-- Fills lines with parts. `line` holds the parts of the current line in reverse, and `used` counts
the characters up to its end. -/
def fillFrom (indent : Nat) (line : List String) (used : Nat) : List String → List (List String)
  | [] => if line.isEmpty then [] else [line.reverse]
  | part :: rest =>
    if lineWidth < used + 1 + part.length && !line.isEmpty then
      line.reverse :: fillFrom indent [part] (indent + part.length) rest
    else fillFrom indent (part :: line) (used + 1 + part.length) rest

def fill (indent : Nat) (parts : List String) : List String :=
  (fillFrom indent [] (indent - 1) parts).map fun line =>
    String.ofList (List.replicate indent ' ') ++ String.intercalate " " line

def usagePrefix : String := "usage: "

/-- The short form. Where it takes several lines, the operands begin a line of their own. -/
def Grammar.usage (g : Grammar) : String :=
  let options := "[-h]" :: g.options.flatMap Switch.parts
  let operands := g.operands.map Operand.name
  let line := usagePrefix ++ String.intercalate " " (g.program :: (options ++ operands))
  if line.length ≤ lineWidth then line
  else
    let head := usagePrefix ++ g.program ++ " "
    let body := String.intercalate "\n" (fill head.length options ++ fill head.length operands)
    head ++ String.ofList (body.toList.drop head.length)

/-! ## The long form -/

def explanationLimit : Nat := 24

def entryText (column : Nat) (head explanation : String) : String :=
  if explanation = "" then "  " ++ head ++ "\n"
  else if head.length + 4 ≤ column then
    "  " ++ Text.padRight (column - 2) head ++ explanation ++ "\n"
  else "  " ++ head ++ "\n" ++ Text.padRight column "" ++ explanation ++ "\n"

def sectionText (column : Nat) (heading : String) (entries : List (String × String)) : String :=
  if entries.isEmpty then ""
  else "\n" ++ heading ++ ":\n" ++ String.join (entries.map fun e => entryText column e.1 e.2)

def Grammar.helpText (g : Grammar) : String :=
  let operands := g.operands.map fun o => (o.name, o.help)
  let options := ("-h, " ++ helpName, "show this help message and exit") ::
    g.options.map fun o => (String.intercalate " " o.form, o.help)
  let longest := (operands ++ options).foldl (fun n e => max n e.1.length) 0
  let column := min (longest + 4) explanationLimit
  g.usage ++ "\n\n" ++ g.description ++ "\n" ++
    sectionText column "positional arguments" operands ++ sectionText column "options" options

end Workbench.CommandLine

namespace Workbench.Session

variable {ε : Type}

/-- Reads a command line. A request for help ends the session well, a mistake does not. -/
def given (g : CommandLine.Grammar) (args : List String) : Session ε CommandLine.Given := do
  match g.read args with
  | .ok given => return given
  | .error .help =>
    print g.helpText
    exit 0
  | .error (.mistake complaint) =>
    complain (g.usage ++ "\n" ++ g.program ++ ": error: " ++ complaint ++ "\n")
    exit 2

end Workbench.Session
