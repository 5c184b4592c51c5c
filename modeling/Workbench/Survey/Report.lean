import Workbench.Data.Display
import Workbench.Data.JsonWriter
import Workbench.World.Clock

/-!
# Reports

Writes an analysis for readers, as a Markdown page or as a web page. The analysis is a value read
from a file, so its shape is not taken for granted.
-/

namespace Workbench.Survey

def fileLines (v : Value) : Except Value.ShapeFault (List String) := do
  (← v.members).mapM fun item => do
    let path ← item.fieldOr "path" .null
    let lines ← item.fieldOr "lines" (.int 0)
    return "- " ++ path.display ++ " (" ++ lines.display ++ " lines)"

def markdownReport (moment : Moment) (analysis : Value) : Except Value.ShapeFault String := do
  let stats ← analysis.fieldOr "statistics" (.dict [])
  let critical ← analysis.fieldOr "critical_files" (.list [])
  let warning ← analysis.fieldOr "warning_files" (.list [])
  let rows := (← stats.fields).map fun (key, v) => "| " ++ key ++ " | " ++ v.display ++ " |"
  let criticalPart ← if critical.truthy then
      (fileLines critical).map fun lines => "## Critical Files" :: lines
    else pure []
  let warningPart ← if warning.truthy then
      (fileLines warning).map fun lines => "" :: "## Warning Files" :: lines
    else pure []
  let emptyPart :=
    if critical.truthy || warning.truthy then [] else ["\nNo files require refactor."]
  return String.intercalate "\n" (
    ["# Refactor Report", "", "Generated: " ++ moment.stamp, "", "## Summary",
      "| Metric | Value |", "| --- | --- |"] ++
    rows ++ [""] ++ criticalPart ++ warningPart ++ emptyPart)

def webReport (analysis : Value) : String :=
  "<html><body><h1>Refactor Report</h1><pre>" ++ Json.render .report analysis ++
    "</pre></body></html>"

/-- The page in the wanted form; anything but a web page is Markdown. -/
def reportText (moment : Moment) (analysis : Value) (form : String) :
    Except Value.ShapeFault String :=
  if form = "html" then .ok (webReport analysis) else markdownReport moment analysis

end Workbench.Survey
