import Workbench.Survey.Language

/-!
# Files and their sizes

Which files of a folder belong to a survey, and how many lines they have.
-/

namespace Workbench.Survey

/-! ## Lines -/

def sourceLines (files : Files) (path : Path) : Except FileFault (List String) := do
  return Text.lines (← files.lenientText path)

def countLines (files : Files) (name : String) : Except FileFault Nat := do
  return (← sourceLines files (Path.ofString name)).length

def kindWord (name : String) : String :=
  match Language.ofExtension? name with
  | some l => l.word
  | none => if Language.extension name = ".md" then "md" else "unknown"

/-! ## Folders -/

/-- Hidden files, and all that lies in a cache, stay out. -/
def isSurveyed (path : Path) : Bool :=
  path.name.toList.head? != some '.' && !path.parts.contains "__pycache__"

def filesFrom (files : Files) (deep : Bool) : Nat → Path → Place → List Path
  | 0, _, _ => []
  | depth + 1, path, place =>
    let inside := files.entries place
    let own := inside.filterMap fun (name, item) =>
      match item with
      | .folder => none
      | .file _ => some (path.child name)
    own ++ inside.flatMap fun (name, item) =>
      match item with
      | .folder =>
        if deep then filesFrom files deep depth (path.child name) (place ++ [name]) else []
      | .file _ => []

def scan (files : Files) (folder : String) (deep : Bool) : Except FileFault (List Path) := do
  let path := Path.ofString folder
  match ← files.present? path with
  | some .folder =>
    let place ← files.locate path.toString
    return (filesFrom files deep (files.items.length + 1) path place).filter isSurveyed
  | _ => return []

end Workbench.Survey
