import Workbench.Flow.Graph
import Workbench.Text.Blank

/-!
# Flow graphs as nested lists

One line for each node and each edge, in the form `(kind :id name :label "text")` and
`(kind source -> target :label "text")`.
-/

namespace Workbench.Flow

namespace Lisp

def labelChar : Char → List Char
  | '"' => ['\\', '"']
  | '\n' => [' ']
  | c => [c]

def labelText (s : String) : String := String.ofList (s.toList.flatMap labelChar)

def nodeLine (n : Node) : String :=
  "    (" ++ Text.padRight 6 n.kind.word ++ " :id " ++ Text.padRight 10 n.id ++ " :label \"" ++
    labelText n.label ++ "\")"

def edgeLine (a : Graph.Arrow) : String :=
  "    (" ++ Text.padRight 8 a.kind.word ++ " " ++ a.source.id ++ " -> " ++ a.target.id ++
    (if a.label = "" then "" else " :label \"" ++ a.label ++ "\"") ++ ")"

end Lisp

def Graph.lisp (g : Graph) : Except GraphFault String := do
  let nodes ← g.nodes
  let arrows ← g.arrows
  return String.intercalate "\n"
    (["(flow-graph :name \"" ++ g.name ++ "\"", "  (nodes"] ++ nodes.map Lisp.nodeLine ++
      ["  )", "  (edges"] ++ arrows.map Lisp.edgeLine ++ ["  )", ")"])

end Workbench.Flow
