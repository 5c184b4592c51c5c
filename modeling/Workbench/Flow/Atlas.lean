import Workbench.Flow.Outline
import Workbench.Flow.Symbols

/-!
# Atlases

One graph for a whole project. Every function of every file is drawn and merged into the graph of
its file, under the function's name; the graphs of the files are merged under their flattened
paths; and a call is linked to the function it names, if that name is defined exactly once.
-/

namespace Workbench.Flow

def functionName (label : String) : String :=
  let word := (label.toList.dropWhile (· != ' ')).drop 1 |>.takeWhile (· != ' ')
  String.ofList (word.takeWhile (· != '('))

def flatPath (project file : String) : String :=
  String.ofList ((PathName.between project file).toList.map fun c =>
    if c == '/' || c == '.' then '_' else c)

def dropBrackets : List Char → List Char
  | [] => []
  | '(' :: ')' :: r => dropBrackets r
  | c :: r => c :: dropBrackets r

def calledName (label : String) : String := String.ofList (dropBrackets label.toList)

structure Chapter where
  path : String
  source : Source

/-- Draws functions one after the other, merging each under its name into the graph of the file and
noting its definition. Stops at the first that cannot be drawn; the definitions stay noted. -/
def indexFunctions (settings : Option Value) (c : Chapter) :
    Graph → Symbols → List Tree → Except DrawFault Graph × Symbols
  | g, symbols, [] => (.ok g, symbols)
  | g, symbols, t :: ts =>
    match graphOf c.source.dialect c.source.code settings t with
    | .error f => (.error f, symbols)
    | .ok h =>
      match h.entry.bind h.node? with
      | none => indexFunctions settings c g symbols ts
      | some entry =>
        let name := functionName entry.label
        let (_, g) := g.merge h name
        indexFunctions settings c g (symbols.register ⟨name, c.path, scopedId name entry.id, ""⟩) ts

def indexFile (settings : Option Value) (symbols : Symbols) (c : Chapter) :
    Except DrawFault Graph × Symbols :=
  indexFunctions settings c (.empty (PathName.base c.path)) symbols
    (functions c.source.dialect c.source.tree)

/-- Where the index of a project stands: all definitions, and the graphs of the files that could be
drawn to the end. -/
structure Index where
  symbols : Symbols
  graphs : List (String × Graph)

def Index.empty : Index := ⟨.empty, []⟩

/-- Adds a file. If it cannot be drawn it has no graph in the index. -/
def Index.add (settings : Option Value) (index : Index) (c : Chapter) : Index × Option DrawFault :=
  match indexFile settings index.symbols c with
  | (.ok g, symbols) => (⟨symbols, index.graphs ++ [(c.path, g)]⟩, none)
  | (.error f, symbols) => (⟨symbols, index.graphs⟩, some f)

def fuse (project : String) (graphs : List (String × Graph)) : Graph :=
  graphs.foldl (fun g (path, h) => (g.merge h (flatPath project path)).2) (.empty "ProjectAtlas")

def linkTarget? (project : String) (symbols : Symbols) (g : Graph) (n : Node) : Option Node :=
  if n.kind = .call then
    (symbols.resolve (calledName n.label)).bind fun d =>
      g.node? (scopedId (flatPath project d.file) d.node)
  else none

/-- Links every call to the function it names; also tells how many links there are. -/
def crossLink (project : String) (symbols : Symbols) (g : Graph) : Graph × Nat :=
  g.vertices.foldl (fun (h, count) v =>
    match v.node?.bind (linkTarget? project symbols g) with
    | none => (h, count)
    | some target => (h.addEdge ⟨v.id, target.id, .link, "calls"⟩, count + 1)) (g, 0)

structure Atlas where
  graph : Graph
  links : Nat

def Index.atlas (project : String) (index : Index) : Atlas :=
  let (g, links) := crossLink project index.symbols (fuse project index.graphs)
  ⟨g, links⟩

end Workbench.Flow
