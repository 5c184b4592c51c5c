import Workbench.Flow.Draft
import Workbench.Flow.Braced.Statement

/-!
# Drawing blocks

The flow graph of a Rust function. Each question mark becomes a check with an edge to the end of the
function, drawn before the statement that holds it.
-/

namespace Workbench.Flow.Braced

open Drawing

def drawCheck (current : Node) (mark : Tree) : Drawing Node := do
  let check ← append current .virtual ⟨"Check '?'", some mark⟩
  addEdge check (← functionExit) .err "Err"
  return check

def drawChecks (current : Node) : List Tree → Drawing Node
  | [] => return current
  | mark :: marks => do drawChecks (← drawCheck current mark) marks

/-- The labels of a loop: where it ends, and the edges for leaving it and for another round. -/
structure LoopLabels where
  exit : String
  leave : String
  enter : String

def LoopHead.labels : LoopHead → LoopLabels
  | .whileTrue => ⟨"end while", "False", "True"⟩
  | .forEach => ⟨"end for", "Done", "Next"⟩

/-- The fork of a condition, and a block that is not linked to anything. -/
def appendCondition (current : Node) (label : Tree.Excerpt) : Drawing Node := do
  let fork ← append current .fork (← readable label)
  let _ ← addNode .block "Then"
  return fork

/-- Joins the two sides of a condition, unless neither goes on. A side without statements ends at
the fork. -/
def joinSides (fork : Node) (yes no : Option Node) : Drawing (Option Node) := do
  if yes.isNone && no.isNone then return none
  let join ← addNode .join "fi"
  followFrom yes join
  match no with
  | none => return some join
  | some n =>
    if n.id = fork.id then addEdge fork join .condFalse "False" else follow n join
    return some join

mutual

def Statement.draw (current : Node) : Statement → Drawing (Option Node)
  | .checked marks inner => do inner.draw (← drawChecks current marks)
  | .plain label => do return some (← append current .block (← readable label))
  | .call label => do return some (← append current .call (← readable label))
  | .hollow => throw .emptyStatement
  | .ret => do
    let n ← append current .exit "return"
    follow n (← functionExit)
    return none
  | .panic => do
    let _ ← append current .exit "panic!"
    return none
  | .cond label consequence none => do
    let fork ← appendCondition current label
    let yes ← consequence.draw fork .condTrue "True"
    joinSides fork yes (some fork)
  | .cond label consequence (some side) => do
    let fork ← appendCondition current label
    let yes ← consequence.draw fork .condTrue "True"
    joinSides fork yes (← side.draw fork .condFalse "False")
  | .select label .missing => do
    let _ ← append current .fork (← readable label)
    let _ ← addNode .join "end match"
    throw .noBlock
  | .select label (.arms l) => do
    let fork ← append current .fork (← readable label)
    let join ← addNode .join "end match"
    if ← drawArms fork join l then return some join else return none
  | .forever body => do
    let header ← append current .join "loop"
    let exit ← addNode .join "end loop"
    openLoop header exit
    repeatFrom (← body.draw header) header
    closeLoop
    return some exit
  | .loop head label body => do
    let labels := head.labels
    let check ← append current .fork (← readable label)
    let exit ← addNode .join labels.exit
    addEdge check exit .condFalse labels.leave
    openLoop check exit
    let start ← branch check .condTrue labels.enter "Body"
    repeatFrom (← body.draw start) check
    closeLoop
    return some exit
  | .breakLoop => Drawing.breakLoop current
  | .continueLoop => Drawing.continueLoop current

def Block.draw (current : Node) : Block → Drawing (Option Node)
  | .missing => throw .noBlock
  | .braces l => drawAll current l

/-- Draws statements one after the other, up to the first that does not go on. -/
def drawAll (current : Node) : List Statement → Drawing (Option Node)
  | [] => return some current
  | s :: r => do
    match ← s.draw current with
    | none => return none
    | some n => drawAll n r

/-- Draws one side of a fork. Its statements follow a node of their own, which carries the label of
the side; without statements it is not drawn. -/
def Branch.draw (fork : Node) (kind : EdgeKind) (label : String) : Branch → Drawing (Option Node)
  | .block .missing => throw .noBranch
  | .block (.braces []) => return some fork
  | .block (.braces (s :: r)) => do
    let start ← branch fork kind label label
    match ← s.draw start with
    | none => return none
    | some n => drawAll n r
  | .single s => do
    let start ← branch fork kind label label
    s.draw start

/-- Draws the arms of a choice; tells whether any of them goes on to the join. -/
def drawArms (fork join : Node) : List Arm → Drawing Bool
  | [] => return false
  | .arm pattern value :: r => do
    let pattern ← readable pattern
    let entry ← branch fork .condTrue pattern ("Case " ++ pattern)
    match ← value.drawInside entry with
    | none => drawArms fork join r
    | some n =>
      follow n join
      let _ ← drawArms fork join r
      return true

def Branch.drawInside (current : Node) : Branch → Drawing (Option Node)
  | .block .missing => throw .noBranch
  | .block (.braces l) => drawAll current l
  | .single s => s.draw current

end

mutual

/-- Goes through a tree and draws a check for each question mark that comes up, behind the one
before. What is inside a question mark, a closure or an asynchronous block is passed over. -/
def scan (current : Node) : Tree → Drawing Node
  | .node kind start stop field children =>
    if kind = "closure_expression" ∨ kind = "async_block" then return current
    else if kind = "try_expression" then drawCheck current (.node kind start stop field children)
    else scanAmong current children

def scanAmong (current : Node) : List Tree → Drawing Node
  | [] => return current
  | t :: ts => do scanAmong (← scan current t) ts

end

def drawUnchecked (source : Bytes) (t : Tree) (current : Node) : Drawing (Option Node) :=
  (Statement.ofTree source t).unchecked.draw current

/-- Draws an expression if its tree is of a kind that steers the flow; else nothing happens. -/
def drawSteering (source : Bytes) (t : Tree) (current : Node) : Drawing (Option Node) :=
  if steers t.kind then drawUnchecked source t current else return some current

def Function.draw (describe : String → Except DrawFault Value) (f : Function) : Drawing Unit :=
  drawFunction ⟨"fn ", "Function Exit"⟩ f.name describe fun entry =>
    match f.body with
    | .missing => return none
    | body => body.draw entry

def draft (source : Bytes) (describe : String → Except DrawFault Value) (t : Tree) :
    Except DrawFault Unit × Draft :=
  ((Function.ofTree source t).draw describe).on (.empty "rust_cfg")

end Workbench.Flow.Braced
