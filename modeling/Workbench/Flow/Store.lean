import Workbench.Flow.Lisp
import Workbench.Flow.Dot

/-!
# Graph stores

Several graphs side by side, each in a slot of its own, and the operations on them. A node that was
once handed out can be referred to by its slot and name, even when the slot has a new graph since.
-/

namespace Workbench.Flow

structure Store where
  slots : List (String × Graph)
  -- the slot and the name of every node handed out
  issued : List (String × String)

structure NodeRef where
  slot : String
  id : String
deriving DecidableEq, Repr

inductive StoreFault where
  | noGraph (slot : String)
  | graph (fault : GraphFault)
deriving DecidableEq, Repr

namespace Store

def empty : Store := ⟨[], []⟩

def graph (s : Store) (slot : String) : Except StoreFault Graph :=
  match s.slots.find? fun p => p.1 == slot with
  | some (_, g) => .ok g
  | none => .error (.noGraph slot)

def setGraph (s : Store) (slot : String) (g : Graph) : Store :=
  if s.slots.any fun p => p.1 == slot then
    { s with slots := s.slots.map fun p => if p.1 == slot then (slot, g) else p }
  else { s with slots := s.slots ++ [(slot, g)] }

def resolve (s : Store) (r : NodeRef) : Except StoreFault String :=
  if s.issued.contains (r.slot, r.id) then .ok r.id
  else
    match s.graph r.slot with
    | .error f => .error f
    | .ok g =>
      match g.node r.id with
      | .ok n => .ok n.id
      | .error f => .error (.graph f)

inductive Op where
  | create (name : String)
  | node (kind : NodeKind) (label : String) (description : Value)
  | edge (source target : NodeRef) (kind : EdgeKind) (label : String)
  | get (id : String)
  | entry (ref : NodeRef)
  | merge (other : String) (scope : String)
  | nodes
  | edges
  | lisp
  | dot

inductive Reply where
  | nothing
  | id (id : String)
  | node (n : Node)
  | nodes (l : List Node)
  | arrows (l : List Graph.Arrow)
  | text (s : String)

def lifted {α : Type} : Except GraphFault α → Except StoreFault α
  | .ok a => .ok a
  | .error f => .error (.graph f)

def step (s : Store) (slot : String) : Op → Except StoreFault Reply × Store
  | .create name => (.ok .nothing, s.setGraph slot (.empty name))
  | op =>
    match s.graph slot with
    | .error f => (.error f, s)
    | .ok g =>
      match op with
      | .create name => (.ok .nothing, s.setGraph slot (.empty name))
      | .node kind label description =>
        let (n, g) := g.addNode kind label description
        let s := s.setGraph slot g
        (.ok (.id n.id), { s with issued := (slot, n.id) :: s.issued })
      | .edge source target kind label =>
        match s.resolve source, s.resolve target with
        | .ok u, .ok v => (.ok .nothing, s.setGraph slot (g.addEdge ⟨u, v, kind, label⟩))
        | .error f, _ => (.error f, s)
        | _, .error f => (.error f, s)
      | .get id => (lifted ((g.node id).map .node), s)
      | .entry ref =>
        match s.resolve ref with
        | .ok id => (.ok (.id id), s.setGraph slot (g.setEntry id))
        | .error f => (.error f, s)
      | .merge other scope =>
        if other = slot then
          let (r, g) := g.mergeSelf scope
          (lifted (r.map fun _ => .nothing), s.setGraph slot g)
        else
          match s.graph other with
          | .error f => (.error f, s)
          | .ok h =>
            let (r, g) := g.merge h scope
            (lifted (r.map fun _ => .nothing), s.setGraph slot g)
      | .nodes => (lifted (g.nodes.map .nodes), s)
      | .edges => (lifted (g.arrows.map .arrows), s)
      | .lisp => (lifted (g.lisp.map .text), s)
      | .dot => (lifted (g.dot.map .text), s)

end Store

end Workbench.Flow
