import Workbench.World.Files
import Workbench.Text.Lines

/-!
# Reading texts

The two ways of reading a file as text. Source code is read leniently, so that bytes which are no
text do not stop a survey; reports are read strictly. Either way every line end becomes a line
feed.
-/

namespace Workbench

inductive ReadFault where
  | file (fault : FileFault)
  | text (fault : Utf8.Fault)

namespace Files

def lenientText (files : Files) (path : Path) : Except FileFault String := do
  return Text.plainNewlines (Utf8.salvage (← files.read path.toString))

def strictText (files : Files) (name : String) : Except ReadFault String :=
  match files.read name with
  | .error f => .error (.file f)
  | .ok content =>
    match Utf8.decode content with
    | .error f => .error (.text f)
    | .ok s => .ok (Text.plainNewlines s)

end Files

end Workbench
