import Workbench.Data.Value
import Workbench.Syntax.Tree

/-!
# Flow graphs

Labelled directed graphs of control flow. Vertices stand in the order in which they came in, and
each holds a node, or nothing if an edge was drawn to it before any node was put there. There is at
most one edge from a vertex to another; drawing it again gives it a new kind and label.
-/

namespace Workbench.Flow

/-! ## Nodes and edges -/

inductive NodeKind where
  | block | fork | join | call | virtual | exit
deriving DecidableEq, Repr

def NodeKind.word : NodeKind → String
  | .block => "block"
  | .fork => "fork"
  | .join => "join"
  | .call => "call"
  | .virtual => "virtual"
  | .exit => "exit"

inductive EdgeKind where
  | seq | condTrue | condFalse | err | jump | link
deriving DecidableEq, Repr

def EdgeKind.word : EdgeKind → String
  | .seq => "seq"
  | .condTrue => "cond_true"
  | .condFalse => "cond_false"
  | .err => "err"
  | .jump => "jump"
  | .link => "link"

/-- What stands on a node: a text and, if the node is a check, the question mark that it is for. -/
structure Label where
  text : String
  mark : Option Tree

instance : Coe String Label := ⟨fun text => ⟨text, none⟩⟩

structure Node where
  id : String
  kind : NodeKind
  label : String
  -- the question mark that a check is for
  mark : Option Tree
  -- what the settings say about the node; empty for most
  description : Value
  -- the name under which a merged node came in
  cluster : Option String

def scopedId (scope id : String) : String := scope ++ "_" ++ id

def Node.scoped (scope : String) (n : Node) : Node :=
  { n with id := scopedId scope n.id, cluster := some scope }

structure Edge where
  source : String
  target : String
  kind : EdgeKind
  label : String
deriving DecidableEq, Repr

structure Vertex where
  id : String
  node? : Option Node

structure Graph where
  name : String
  vertices : List Vertex
  -- in the order in which they were first drawn
  edges : List Edge
  entry : Option String
  -- how many nodes the graph has numbered so far
  counter : Nat

inductive GraphFault where
  -- no such vertex, or no node at it
  | noNode (id : String)
  -- a graph gained a vertex while it was being copied into itself
  | grewWhileRead
deriving DecidableEq, Repr

namespace Graph

def empty (name : String) : Graph := ⟨name, [], [], none, 0⟩

/-! ## Reading -/

def vertex? (g : Graph) (id : String) : Option Vertex := g.vertices.find? fun v => v.id == id

def node? (g : Graph) (id : String) : Option Node := (g.vertex? id).bind Vertex.node?

def node (g : Graph) (id : String) : Except GraphFault Node :=
  match g.node? id with
  | some n => .ok n
  | none => .error (.noNode id)

def nodes (g : Graph) : Except GraphFault (List Node) :=
  g.vertices.mapM fun v => match v.node? with
    | some n => .ok n
    | none => .error (.noNode v.id)

/-- The edges by the order of their sources; edges from one source in the order in which they were
first drawn. -/
def arranged (g : Graph) : List Edge :=
  g.vertices.flatMap fun v => g.edges.filter fun e => e.source == v.id

structure Arrow where
  source : Node
  target : Node
  kind : EdgeKind
  label : String

def arrow (g : Graph) (e : Edge) : Except GraphFault Arrow := do
  return ⟨← g.node e.source, ← g.node e.target, e.kind, e.label⟩

def arrows (g : Graph) : Except GraphFault (List Arrow) := g.arranged.mapM g.arrow

/-! ## Writing -/

/-- Puts a node at the vertex of its name: in place if there is one, else at a new vertex. -/
def put (g : Graph) (n : Node) : Graph :=
  if g.vertices.any fun v => v.id == n.id then
    { g with vertices := g.vertices.map fun v => if v.id == n.id then ⟨v.id, some n⟩ else v }
  else { g with vertices := g.vertices ++ [⟨n.id, some n⟩] }

def nextId (g : Graph) (kind : NodeKind) : String :=
  kind.word ++ "_" ++ Decimal.digitText (g.counter + 1)

def addNode (g : Graph) (kind : NodeKind) (label : Label) (description : Value) : Node × Graph :=
  let n : Node := ⟨g.nextId kind, kind, label.text, label.mark, description, none⟩
  (n, { g with counter := g.counter + 1 }.put n)

def touch (g : Graph) (id : String) : Graph :=
  if g.vertices.any fun v => v.id == id then g
  else { g with vertices := g.vertices ++ [⟨id, none⟩] }

/-- Draws an edge: in place of one with the same ends, else as a new one. -/
def addEdge (g : Graph) (e : Edge) : Graph :=
  let g := (g.touch e.source).touch e.target
  if g.edges.any fun d => d.source == e.source && d.target == e.target then
    { g with edges := g.edges.map fun d =>
        if d.source == e.source && d.target == e.target then e else d }
  else { g with edges := g.edges ++ [e] }

def setEntry (g : Graph) (id : String) : Graph := { g with entry := some id }

/-! ## Merging -/

/-- Copies nodes one by one until a vertex without one comes up. -/
def putScoped (scope : String) : List Vertex → Graph → Except GraphFault Unit × Graph
  | [], g => (.ok (), g)
  | v :: vs, g =>
    match v.node? with
    | none => (.error (.noNode v.id), g)
    | some n => putScoped scope vs (g.put (n.scoped scope))

/-- Copies another graph into this one under a name. What was copied before a fault stays. -/
def merge (g other : Graph) (scope : String) : Except GraphFault Unit × Graph :=
  match putScoped scope other.vertices g with
  | (.error f, g) => (.error f, g)
  | (.ok (), g) =>
    (.ok (), other.arranged.foldl (fun g e => g.addEdge
      { e with source := scopedId scope e.source, target := scopedId scope e.target }) g)

/-- Copies a graph into itself, vertex by vertex. Only an empty graph gets to the end: the first
copy that needs a vertex of its own changes what is being read. -/
def mergeSelf (g : Graph) (scope : String) : Except GraphFault Unit × Graph :=
  go (g.vertices.map Vertex.id) g
where
  go : List String → Graph → Except GraphFault Unit × Graph
    | [], g => (.ok (), g)
    | id :: ids, g =>
      match g.node? id with
      | none => (.error (.noNode id), g)
      | some n =>
        let grown := g.put (n.scoped scope)
        if grown.vertices.length = g.vertices.length then go ids grown
        else (.error .grewWhileRead, grown)

end Graph

end Workbench.Flow
