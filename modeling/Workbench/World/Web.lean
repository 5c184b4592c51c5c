import Workbench.Data.Value

/-!
# Servers

Requests that a tool sends to a server, and what comes of them.
-/

namespace Workbench

/-- A request, with what was sent along under each name. -/
structure Post where
  url : String
  auth : String
  content : List (String × String)
deriving DecidableEq, Repr

structure ReplyFault where
  -- it counts as an error of the request
  ofRequest : Bool
  text : String
deriving DecidableEq, Repr

inductive Reply where
  | failed (fault : ReplyFault)
  -- an answer with its status, the text of the error that this status makes if it makes one, and its
  -- body or the error in reading it
  | answer (status : Nat) (refusal : String) (body : Except ReplyFault Value)

def Reply.refuses (status : Nat) : Bool := 400 ≤ status && status < 600

def Reply.body : Reply → Except ReplyFault Value
  | .failed fault => .error fault
  | .answer status refusal body => if refuses status then .error ⟨true, refusal⟩ else body

end Workbench
