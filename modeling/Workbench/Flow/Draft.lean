import Workbench.Flow.Graph

/-!
# Drafts

A flow graph in the making: the graph so far with the history of its edges, the node where the
function ends, and the loops that are open around the current statement. Drawing a statement starts
at a current node and ends at the node from which the flow goes on, or nowhere if it never does.
What was drawn before a fault stays in the draft.
-/

namespace Workbench.Flow

/-- The two nodes of an open loop: where the next round starts and where the loop is left. -/
structure Loop where
  header : Node
  exit : Node

structure Draft where
  graph : Graph
  -- where the function ends, once that node is drawn
  exit : Option Node
  -- the open loops, the innermost first
  loops : List Loop
  -- every edge that was drawn, in order, also one in the place of another
  strokes : List Edge

def Draft.empty (name : String) : Draft := ⟨.empty name, none, [], []⟩

inductive DrawFault where
  | noBlock
  | noBranch
  | badText (fault : Utf8.Fault)
  -- a statement that should wrap another is empty
  | emptyStatement
  | noExit
  -- a value of this kind stands where the settings should have a table
  | noTable (kind : String)
deriving DecidableEq, Repr

abbrev Drawing (α : Type) := ExceptT DrawFault (StateM Draft) α

namespace Drawing

def on {α : Type} (x : Drawing α) (d : Draft) : Except DrawFault α × Draft :=
  (ExceptT.run x).run d

def addNode (kind : NodeKind) (label : Label) : Drawing Node := do
  let d ← get
  let (n, g) := d.graph.addNode kind label (.str "")
  set { d with graph := g }
  return n

def addEdge (source target : Node) (kind : EdgeKind) (label : String) : Drawing Unit :=
  modify fun d =>
    let e : Edge := ⟨source.id, target.id, kind, label⟩
    { d with graph := d.graph.addEdge e, strokes := d.strokes ++ [e] }

def follow (source target : Node) : Drawing Unit := addEdge source target .seq ""

def followFrom : Option Node → Node → Drawing Unit
  | none, _ => return ()
  | some source, target => follow source target

def readable : Tree.Excerpt → Drawing String
  | .ok s => return s
  | .error f => throw (.badText f)

def functionExit : Drawing Node := do
  match (← get).exit with
  | some n => return n
  | none => throw .noExit

def openLoop (header exit : Node) : Drawing Unit :=
  modify fun d => { d with loops := ⟨header, exit⟩ :: d.loops }

def closeLoop : Drawing Unit := modify fun d => { d with loops := d.loops.tail }

def append (current : Node) (kind : NodeKind) (label : Label) : Drawing Node := do
  let n ← addNode kind label
  follow current n
  return n

def branch (current : Node) (kind : EdgeKind) (edgeLabel : String) (label : String) :
    Drawing Node := do
  let n ← addNode .virtual label
  addEdge current n kind edgeLabel
  return n

/-- Leaves the innermost loop; outside of all loops nothing is drawn. -/
def breakLoop (current : Node) : Drawing (Option Node) := do
  match (← get).loops with
  | [] => return none
  | l :: _ => addEdge current l.exit .jump "break"; return none

def continueLoop (current : Node) : Drawing (Option Node) := do
  match (← get).loops with
  | [] => return none
  | l :: _ => addEdge current l.header .jump "continue"; return none

def repeatFrom (finish : Option Node) (header : Node) : Drawing Unit :=
  match finish with
  | none => return ()
  | some n => addEdge n header .jump "repeat"

structure Frame where
  lead : String
  exit : String

/-- Draws a function: its entry, its end, and its body between them. The entry carries what the
settings say about the function's name. -/
def drawFunction (frame : Frame) (name : Tree.Excerpt)
    (describe : String → Except DrawFault Value) (body : Node → Drawing (Option Node)) :
    Drawing Unit := do
  let name ← readable name
  let description ← describe name
  let d ← get
  let (entry, g) := d.graph.addNode .block ⟨frame.lead ++ name, none⟩ description
  set { d with graph := g.setEntry entry.id }
  let exit ← addNode .exit frame.exit
  modify fun d => { d with exit := some exit }
  match ← body entry with
  | none => return ()
  | some n => if n.kind = .exit then return () else follow n exit

end Drawing

end Workbench.Flow
