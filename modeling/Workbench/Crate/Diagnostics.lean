import Workbench.Data.JsonReader
import Workbench.Text.Lines

/-!
# Diagnostics

The messages of a compiler, one value to a line, and the errors among them. Lines that hold no
message are passed over.
-/

namespace Workbench.Crate

def errorOf? (message : Value) : Option Value :=
  match message.field? "reason", message.field? "message" with
  | some (.str "compiler-message"), some body =>
    match body.field? "level" with
    | some (.str "error") => some ((body.field? "rendered").getD (.str ""))
    | _ => none
  | _, _ => none

def errorsIn (limits : Json.Limits) (output : String) : List Value :=
  (Text.lines output).filterMap fun line => ((Json.read limits line).toOption).bind errorOf?

end Workbench.Crate
