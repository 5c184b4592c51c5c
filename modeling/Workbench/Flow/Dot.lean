import Workbench.Flow.Graph
import Workbench.Data.Display

/-!
# Flow graphs as pictures

A flow graph in the language of the graph drawing tool `dot`: the kind of a node gives its shape,
the kind of an edge its colour.
-/

namespace Workbench.Flow

namespace Dot

def labelChar : Char → List Char
  | '"' => ['\\', '"']
  | c => [c]

def nodeText (n : Node) : String :=
  String.ofList (n.label.toList.flatMap labelChar) ++
    (if n.description.truthy then "\\n(" ++ n.description.display ++ ")" else "")

def shape : NodeKind → String
  | .block => "shape=box"
  | .fork => "shape=diamond, fillcolor=\"#FFF3CD\""
  | .join => "shape=point, width=0.1"
  | .call => "shape=ellipse, fillcolor=\"#E2E3E5\""
  | .exit => "shape=doublecircle, fillcolor=\"#F8D7DA\", color=\"#DC3545\""
  | .virtual => "style=\"dashed,filled\""

def stroke : EdgeKind → List String
  | .seq => ["color=\"black\""]
  | .condTrue => ["color=\"#198754\", fontcolor=\"#198754\""]
  | .condFalse => ["color=\"#FD7E14\", fontcolor=\"#FD7E14\""]
  | .err => ["color=\"#DC3545\", style=\"dashed\""]
  | .jump => ["color=\"#6C757D\", constraint=false"]
  | .link => []

def nodeLine (n : Node) : String :=
  "  " ++ n.id ++ " [label=\"" ++ nodeText n ++ "\", " ++ shape n.kind ++ "];"

def edgeLine (a : Graph.Arrow) : String :=
  let label := if a.label = "" then [] else ["label=\"" ++ a.label ++ "\""]
  "  " ++ a.source.id ++ " -> " ++ a.target.id ++ " [" ++
    String.intercalate ", " (label ++ stroke a.kind) ++ "];"

def preamble : List String :=
  ["digraph LogicFlow \x7b",
   "  rankdir=TB;",
   "  splines=ortho;",
   "  node [fontname=\"Courier New\", shape=box, style=filled, fillcolor=white];",
   "  edge [fontname=\"Arial\", fontsize=10];"]

end Dot

def Graph.dot (g : Graph) : Except GraphFault String := do
  let nodes ← g.nodes
  let arrows ← g.arrows
  return String.intercalate "\n"
    (Dot.preamble ++ nodes.map Dot.nodeLine ++ arrows.map Dot.edgeLine ++ ["\x7d"])

end Workbench.Flow
