import Workbench.Flow.Draft
import Workbench.Flow.Suite.Statement

/-!
# Drawing suites

The flow graph of a Python function. Each statement is drawn from the node where the flow stands and
gives back the node where it goes on; after a statement that never goes on the rest of its suite is
not drawn.
-/

namespace Workbench.Flow.Suite

open Drawing

/-- What became of the side of a condition that is taken when it fails: nothing follows it, or it
was drawn and ends at a node, or nowhere. -/
inductive FalseSide where
  | bare
  | drawn (finish : Option Node)

def handlerStart (scope : Node) : Drawing Node := do
  let n ← addNode .block "except"
  addEdge scope n .err "Ex"
  return n

/-- Draws a further condition. Only the side where it holds is followed. -/
def drawElseIf (current : Node) (label : Tree.Excerpt) (body : Node → Drawing (Option Node)) :
    Drawing (Option Node) := do
  let fork ← append current .fork (← readable label)
  body (← branch fork .condTrue "True" "True")

/-- Draws a loop: its check, its body, and the way out of it when the check fails. The loop is open
until the way out is drawn. -/
def drawLoop (current : Node) (label : Tree.Excerpt) (body : Node → Drawing (Option Node))
    (done : Node → Node → Drawing Unit) : Drawing (Option Node) := do
  let check ← append current .fork (← readable label)
  let exit ← addNode .join "end loop"
  openLoop check exit
  let start ← branch check .condTrue "True" "Body"
  repeatFrom (← body start) check
  done check exit
  closeLoop
  return some exit

mutual

def Statement.draw (current : Node) : Statement → Drawing (Option Node)
  | .plain label => do return some (← append current .block (← readable label))
  | .call label => do return some (← append current .call (← readable label))
  | .hollow => throw .emptyStatement
  | .ret => do
    let n ← append current .exit "return"
    if let some exit := (← get).exit then follow n exit
    return none
  | .raise => do
    let n ← append current .exit "raise"
    if let some exit := (← get).exit then addEdge n exit .err ""
    return none
  | .cond label body alternative => do
    let fork ← append current .fork (← readable label)
    let start ← branch fork .condTrue "True" "True"
    let yes ← body.draw start
    match ← alternative.draw fork with
    | .bare =>
      let join ← addNode .join "fi"
      followFrom yes join
      addEdge fork join .condFalse "False"
      return some join
    | .drawn no =>
      if yes.isNone && no.isNone then return none
      let join ← addNode .join "fi"
      followFrom yes join
      followFrom no join
      return some join
  | .loop label body none =>
    drawLoop current label (fun n => body.draw n) fun check exit =>
      addEdge check exit .condFalse "Done"
  | .loop label body (some suite) =>
    drawLoop current label (fun n => body.draw n) fun check exit => do
      let start ← branch check .condFalse "Done" "Else"
      followFrom (← suite.draw start) exit
  | .breakLoop => Drawing.breakLoop current
  | .continueLoop => Drawing.continueLoop current
  | .select label complete => do
    let _ ← append current .fork (← readable label)
    let join ← addNode .join "end match"
    if complete then return some join else throw .noBlock
  | .guarded body handlers none => do
    let scope ← append current .virtual "try scope"
    let finish ← body.draw scope
    let ends ← drawHandlers scope handlers
    let join ← addNode .join "end try"
    followFrom finish join
    ends.forM (follow · join)
    return some join
  | .guarded body handlers (some suite) => do
    let scope ← append current .virtual "try scope"
    let finish ← body.draw scope
    -- the final suite begins before the handlers are drawn
    let join ← addNode .join "finally"
    let ends ← drawHandlers scope handlers
    followFrom finish join
    ends.forM (follow · join)
    suite.draw join
  | .scoped body => do
    let enter ← append current .call "with ..."
    match ← body.draw enter with
    | none => return none
    | some n => return some (← append n .virtual "__exit__")

def Alternative.draw (fork : Node) : Alternative → Drawing FalseSide
  | .none => return .bare
  | .other => do
    let _ ← branch fork .condFalse "False" "False"
    return .bare
  | .elseIf label body => do
    let start ← branch fork .condFalse "False" "False"
    return .drawn (← drawElseIf start label fun n => body.draw n)
  | .otherwise body => do
    let start ← branch fork .condFalse "False" "False"
    return .drawn (← body.draw start)

def Body.draw (current : Node) : Body → Drawing (Option Node)
  | .missing => throw .noBlock
  | .suite l => drawAll current l

def drawAll (current : Node) : List Statement → Drawing (Option Node)
  | [] => return some current
  | s :: r => do
    match ← s.draw current with
    | none => return none
    | some n => drawAll n r

/-- Draws the handlers of a guarded suite; gives back where they go on. -/
def drawHandlers (scope : Node) : List Body → Drawing (List Node)
  | [] => return []
  | .missing :: r => do
    let n ← handlerStart scope
    return n :: (← drawHandlers scope r)
  | .suite l :: r => do
    match ← drawAll (← handlerStart scope) l with
    | none => drawHandlers scope r
    | some n => return n :: (← drawHandlers scope r)

end

def drawSteering (source : Bytes) (t : Tree) (current : Node) : Drawing (Option Node) :=
  if steers t.kind then (Statement.ofTree source t).draw current else return some current

def drawElseIfTree (source : Bytes) (t : Tree) (current : Node) : Drawing (Option Node) :=
  drawElseIf current (headLabel "elif " "" (Tree.fieldText source "condition" t.children))
    (bodyAt source "consequence" t.children).draw

def Function.draw (describe : String → Except DrawFault Value) (f : Function) : Drawing Unit :=
  drawFunction ⟨"def ", "return/exit"⟩ f.name describe f.body.draw

def draft (source : Bytes) (describe : String → Except DrawFault Value) (t : Tree) :
    Except DrawFault Unit × Draft :=
  ((Function.ofTree source t).draw describe).on (.empty "python_cfg")

end Workbench.Flow.Suite
