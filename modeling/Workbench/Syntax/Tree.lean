import Workbench.Text.Utf8

/-!
# Syntax trees

A syntax tree as a parser hands it over: each node has a kind, the range of source bytes it covers,
the field of its parent that it fills, and its children in order. The source itself is kept apart,
as bytes, and the text of a node is read from it on demand.
-/

namespace Workbench

inductive Tree where
  | node (kind : String) (start stop : Nat) (field : Option String) (children : List Tree)
deriving Inhabited

namespace Tree

def kind : Tree → String
  | .node k _ _ _ _ => k

def start : Tree → Nat
  | .node _ s _ _ _ => s

def stop : Tree → Nat
  | .node _ _ e _ _ => e

def field : Tree → Option String
  | .node _ _ _ f _ => f

def children : Tree → List Tree
  | .node _ _ _ _ cs => cs

def fillerOf (name : String) (siblings : List Tree) : Option Tree :=
  siblings.find? fun t => t.field == some name

def child? (t : Tree) (name : String) : Option Tree := fillerOf name t.children

/-- A piece of source text, or why it cannot be read. -/
abbrev Excerpt := Except Utf8.Fault String

def text (source : Bytes) (t : Tree) : Excerpt :=
  Utf8.decode ((source.take t.stop).drop t.start)

/-- The text of the sibling that fills a field, empty where none does. -/
def fieldText (source : Bytes) (name : String) (siblings : List Tree) : Excerpt :=
  match fillerOf name siblings with
  | none => .ok ""
  | some t => t.text source

mutual

def ofKind (kind : String) : Tree → List Tree
  | .node k s e f cs =>
    if k = kind then .node k s e f cs :: ofKindAmong kind cs else ofKindAmong kind cs

def ofKindAmong (kind : String) : List Tree → List Tree
  | [] => []
  | t :: ts => ofKind kind t ++ ofKindAmong kind ts

end

def hasKind (kind : String) (t : Tree) : Bool := !(t.ofKind kind).isEmpty

end Tree

end Workbench
