import Workbench.Flow.Parsing
import Workbench.Flow.Settings
import Workbench.Flow.Suite.Drawing
import Workbench.Flow.Braced.Drawing

/-!
# Flow graphs of functions

The flow graph of one function of a source file, with descriptions from the settings.
-/

namespace Workbench.Flow

def describe (settings : Option Value) (name : String) : Except DrawFault Value :=
  match settings with
  | none => .ok (.str "")
  | some v =>
    match Settings.description v name with
    | .ok d => .ok d
    | .error f => .error (.noTable f.kind)

def draft (dialect : Dialect) (code : Bytes) (settings : Option Value) (function : Tree) :
    Except DrawFault Unit × Draft :=
  match dialect with
  | .suites => Suite.draft code (describe settings) function
  | .braces => Braced.draft code (describe settings) function

def graphOf (dialect : Dialect) (code : Bytes) (settings : Option Value) (function : Tree) :
    Except DrawFault Graph :=
  match draft dialect code settings function with
  | (.ok (), d) => .ok d.graph
  | (.error f, _) => .error f

/-! ## Messages -/

def lackMessage (kind lack : String) : String :=
  "'" ++ kind ++ "' object has no attribute '" ++ lack ++ "'"

def DrawFault.message : DrawFault → String
  | .noBlock => lackMessage "NoneType" "children"
  | .noBranch => lackMessage "NoneType" "type"
  | .badText f => f.message
  | .emptyStatement => "list index out of range"
  | .noExit => lackMessage "NoneType" "id"
  | .noTable kind => lackMessage kind "get"

end Workbench.Flow
