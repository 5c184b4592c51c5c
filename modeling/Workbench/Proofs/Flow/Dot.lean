import Workbench.Proofs.Flow.Lexing

/-!
# Reading pictures

A reader for graphs that are written for the drawing tool. Statements stand between semicolons; each
is a setting, a node or an edge, and an edge has its label among its attributes. What a renderer wrote
is read as it was meant if all names are names and every quoted text is closed where the renderer
closed it.
-/

namespace Workbench.Flow

namespace Dot

def signs : List Char := ['\x7b', '\x7d', '[', ']', ';', ',', '=']

inductive Item where
  | setting
  | node (id : String)
  | edge (source target label : String)
deriving DecidableEq

def value : Token → String
  | .sign c => String.singleton c
  | .word s => s
  | .text s => s

def attributes : List Token → Option (List (String × String))
  | [.sign ']'] => some []
  | [.word key, .sign '=', v, .sign ']'] => some [(key, value v)]
  | .word key :: .sign '=' :: v :: .sign ',' :: r => (attributes r).map ((key, value v) :: ·)
  | _ => none

/-- What stands between semicolons: a setting, defaults for nodes or edges, a node, or an edge. -/
def item : List Token → Option Item
  | [.word _, .sign '=', .word _] => some .setting
  | .word id :: .sign '[' :: r =>
    (attributes r).map fun _ => if id = "node" ∨ id = "edge" then .setting else .node id
  | .word s :: .word "->" :: .word t :: .sign '[' :: r =>
    (attributes r).map fun l => .edge s t ((l.lookup "label").getD "")
  | _ => none

def statements : List Token → List Token → Option (List (List Token))
  | [], [.sign '\x7d'] => some []
  | cur, .sign ';' :: r => (statements [] r).map (cur :: ·)
  | cur, t :: r => statements (cur ++ [t]) r
  | _, [] => none

def collect : List (List Token) → Option (List String × List (String × String × String))
  | [] => some ([], [])
  | s :: r =>
    match item s, collect r with
    | some .setting, some (nodes, edges) => some (nodes, edges)
    | some (.node id), some (nodes, edges) => some (id :: nodes, edges)
    | some (.edge s t label), some (nodes, edges) => some (nodes, (s, t, label) :: edges)
    | _, _ => none

def read (text : String) : Option (List String × List (String × String × String)) :=
  match Lexer.lex signs text with
  | some (.word "digraph" :: .word _ :: .sign '\x7b' :: r) => (statements [] r).bind collect
  | _ => none

/-! ## Attributes -/

def listed : List (String × Token) → List Token
  | [] => []
  | [(key, v)] => [.word key, .sign '=', v]
  | (key, v) :: r => .word key :: .sign '=' :: v :: .sign ',' :: listed r

theorem listed_cons (key : String) (v : Token) (l : List (String × Token)) :
    listed ((key, v) :: l) = [.word key, .sign '=', v] ++ ((if l = [] then [] else [.sign ',']) ++ listed l) := by
  cases l with
  | nil => rfl
  | cons p l => rfl

theorem attributes_listed (l : List (String × Token)) :
    attributes (listed l ++ [.sign ']']) = some (l.map fun p => (p.1, value p.2)) := by
  fun_induction listed l with
  | case1 => rfl
  | case2 key v => rfl
  | case3 key v r hr ih =>
    simp only [List.cons_append, attributes, ih]
    rfl

theorem semicolon_not_mem_listed {l : List (String × Token)} (h : ∀ p ∈ l, p.2 ≠ .sign ';') :
    .sign ';' ∉ listed l := by
  induction l with
  | nil => simp [listed]
  | cons p l ih =>
    have hp := h p List.mem_cons_self
    have hl := ih fun q hq => h q (List.mem_cons_of_mem p hq)
    rw [listed_cons]
    split
    · simp [hl, hp.symm]
    · simp [hl, hp.symm]

def shapeAttributes : NodeKind → List (String × Token)
  | .block => [("shape", .word "box")]
  | .fork => [("shape", .word "diamond"), ("fillcolor", .text "#FFF3CD")]
  | .join => [("shape", .word "point"), ("width", .word "0.1")]
  | .call => [("shape", .word "ellipse"), ("fillcolor", .text "#E2E3E5")]
  | .exit => [("shape", .word "doublecircle"), ("fillcolor", .text "#F8D7DA"), ("color", .text "#DC3545")]
  | .virtual => [("style", .text "dashed,filled")]

def strokeAttributes : EdgeKind → List (String × Token)
  | .seq => [("color", .text "black")]
  | .condTrue => [("color", .text "#198754"), ("fontcolor", .text "#198754")]
  | .condFalse => [("color", .text "#FD7E14"), ("fontcolor", .text "#FD7E14")]
  | .err => [("color", .text "#DC3545"), ("style", .text "dashed")]
  | .jump => [("color", .text "#6C757D"), ("constraint", .word "false")]
  | .link => []

theorem lexes_shape (k : NodeKind) :
    Lexer.Lexes signs (shape k ++ "];\n") (listed (shapeAttributes k) ++ [.sign ']', .sign ';']) := by
  cases k <;> simp only [shape, String.reduceAppend] <;> exact .of_alone rfl

theorem lexes_stroke (k : EdgeKind) : Lexer.Lexes signs (String.intercalate ", " (stroke k) ++ "];\n")
    (listed (strokeAttributes k) ++ [.sign ']', .sign ';']) := by
  cases k <;> simp only [stroke, String.intercalate_singleton, String.intercalate_nil, String.reduceAppend] <;>
    exact .of_alone rfl

/-! ## Nodes and edges -/

def nodeTokens (n : Node) : List Token :=
  [.word n.id, .sign '['] ++
    (listed (("label", .text (String.ofList (Quoting.unescape false (nodeText n).toList))) ::
      shapeAttributes n.kind) ++ [.sign ']'])

def edgeTokens (a : Graph.Arrow) : List Token :=
  [.word a.source.id, .word "->", .word a.target.id, .sign '['] ++
    (listed ((if a.label = "" then [] else [("label", .text a.seenLabel)]) ++ strokeAttributes a.kind) ++
      [.sign ']'])

theorem item_nodeTokens {n : Node} (hn : n.id ≠ "node") (he : n.id ≠ "edge") :
    item (nodeTokens n) = some (.node n.id) := by
  simp [nodeTokens, item, attributes_listed, hn, he]

theorem item_edgeTokens (a : Graph.Arrow) :
    item (edgeTokens a) = some (.edge a.source.id a.target.id a.seenLabel) := by
  have hstroke : ((strokeAttributes a.kind).map fun p => (p.1, value p.2)).lookup "label" = none := by
    cases a.kind <;> rfl
  by_cases h : a.label = ""
  · have hseen : a.seenLabel = "" := by simp [Graph.Arrow.seenLabel, h, Quoting.unescape]
    simp [edgeTokens, item, attributes_listed, h, hstroke, hseen]
  · simp [edgeTokens, item, attributes_listed, h, value]

theorem lexes_nodeLine {n : Node} (hid : isName n.id = true) (htext : Quoting.Sealed (nodeText n).toList) :
    Lexer.Lexes signs (nodeLine n ++ "\n") (nodeTokens n ++ [.sign ';']) := by
  have hcut : nodeLine n ++ "\n" = "  " ++ ((n.id ++ " ") ++ ("[label=" ++
      (("\"" ++ nodeText n ++ "\"") ++ (", " ++ (shape n.kind ++ "];\n"))))) := by
    apply String.toList_inj.1
    simp [nodeLine]
  have hindent : Lexer.Lexes signs "  " [] := fun _ => rfl
  have hkey : Lexer.Lexes signs "[label=" [.sign '[', .word "label", .sign '='] := fun _ => rfl
  have hcomma : Lexer.Lexes signs ", " [.sign ','] := fun _ => rfl
  have hshape : shapeAttributes n.kind ≠ [] := by cases n.kind <;> simp [shapeAttributes]
  have hlex := hindent.append ((Lexer.Lexes.word_blank (isWord_of_isName rfl hid)).append (hkey.append
    ((Lexer.Lexes.quoted htext).append (hcomma.append (lexes_shape n.kind)))))
  rw [hcut]
  simpa [nodeTokens, listed_cons, hshape] using hlex

theorem lexes_edgeLine {a : Graph.Arrow} (hs : isName a.source.id = true)
    (ht : isName a.target.id = true) (hlabel : Quoting.Sealed a.label.toList) :
    Lexer.Lexes signs (edgeLine a ++ "\n") (edgeTokens a ++ [.sign ';']) := by
  have hindent : Lexer.Lexes signs "  " [] := fun _ => rfl
  have harrow : Lexer.Lexes signs "-> " [.word "->"] := fun _ => rfl
  have hopen : Lexer.Lexes signs "[" [.sign '['] := fun _ => rfl
  have hhead := hindent.append ((Lexer.Lexes.word_blank (isWord_of_isName rfl hs)).append
    (harrow.append ((Lexer.Lexes.word_blank (isWord_of_isName rfl ht)).append hopen)))
  by_cases h : a.label = ""
  · have hcut : edgeLine a ++ "\n" =
        "  " ++ (a.source.id ++ " " ++ ("-> " ++ (a.target.id ++ " " ++ "["))) ++
          (String.intercalate ", " (stroke a.kind) ++ "];\n") := by
      apply String.toList_inj.1
      simp [edgeLine, h]
    rw [hcut]
    simpa [edgeTokens, h] using hhead.append (lexes_stroke a.kind)
  · have hkey : Lexer.Lexes signs "label=" [.word "label", .sign '='] := fun _ => rfl
    have hlabelled := hhead.append (hkey.append (Lexer.Lexes.quoted hlabel))
    have hcut : edgeLine a ++ "\n" =
        "  " ++ (a.source.id ++ " " ++ ("-> " ++ (a.target.id ++ " " ++ "["))) ++
          ("label=" ++ ("\"" ++ a.label ++ "\"")) ++
            ((if stroke a.kind = [] then "" else ", ") ++
              (String.intercalate ", " (stroke a.kind) ++ "];\n")) := by
      apply String.toList_inj.1
      by_cases hk : stroke a.kind = []
      · simp [edgeLine, h, hk]
      · simp [edgeLine, h, hk, String.intercalate_cons_of_ne_nil hk]
    -- a link has no stroke of its own, and then no comma follows the label
    have hcomma : Lexer.Lexes signs (if stroke a.kind = [] then "" else ", ")
        (if strokeAttributes a.kind = [] then [] else [.sign ',']) := by
      cases a.kind <;> exact fun _ => rfl
    rw [hcut]
    simpa [edgeTokens, h, listed_cons, Graph.Arrow.seenLabel] using
      hlabelled.append (hcomma.append (lexes_stroke a.kind))

/-! ## Cutting at semicolons -/

theorem statements_append {s : List Token} (hs : .sign ';' ∉ s) (cur r : List Token) :
    statements cur (s ++ .sign ';' :: r) = (statements [] r).map ((cur ++ s) :: ·) := by
  induction s generalizing cur with
  | nil => simp [statements]
  | cons t s ih =>
    have ht : t ≠ .sign ';' := fun h => hs (h ▸ List.mem_cons_self)
    have hs' : .sign ';' ∉ s := fun h => hs (List.mem_cons_of_mem t h)
    rw [List.cons_append, statements, ih hs', List.append_assoc, List.singleton_append]
    · exact ht
    · simp

theorem statements_flatMap {α : Type} {l : List α} {f : α → List Token}
    (hf : ∀ a ∈ l, .sign ';' ∉ f a) (r : List Token) :
    statements [] (l.flatMap (fun a => f a ++ [.sign ';']) ++ r) =
      (statements [] r).map (l.map f ++ ·) := by
  induction l with
  | nil => simp
  | cons a l ih =>
    rw [List.flatMap_cons, List.append_assoc, List.append_assoc, List.singleton_append,
      statements_append (hf a List.mem_cons_self), ih fun b hb => hf b (List.mem_cons_of_mem a hb),
      Option.map_map]
    rfl

theorem semicolon_not_mem_nodeTokens (n : Node) : .sign ';' ∉ nodeTokens n := by
  have h : .sign ';' ∉ listed (("label", .text (String.ofList (Quoting.unescape false (nodeText n).toList))) ::
      shapeAttributes n.kind) := by
    apply semicolon_not_mem_listed
    cases n.kind <;> simp [shapeAttributes]
  simp [nodeTokens, h]

theorem semicolon_not_mem_edgeTokens (a : Graph.Arrow) : .sign ';' ∉ edgeTokens a := by
  have h : .sign ';' ∉ listed ((if a.label = "" then [] else [("label", .text a.seenLabel)]) ++
      strokeAttributes a.kind) := by
    apply semicolon_not_mem_listed
    split <;> cases a.kind <;> simp [strokeAttributes]
  simp [edgeTokens, h]

theorem collect_edges (l : List Graph.Arrow) :
    collect (l.map edgeTokens) = some ([], l.map Graph.Arrow.seen) := by
  induction l with
  | nil => rfl
  | cons a l ih =>
    rw [List.map_cons, collect, item_edgeTokens, ih]
    rfl

theorem collect_settings {l : List (List Token)} (hl : ∀ s ∈ l, item s = some .setting)
    (r : List (List Token)) : collect (l ++ r) = collect r := by
  induction l with
  | nil => rfl
  | cons s l ih =>
    rw [List.cons_append, collect, hl s List.mem_cons_self,
      ih fun t ht => hl t (List.mem_cons_of_mem s ht)]
    cases collect r <;> rfl

theorem collect_nodes {l : List Node} (hl : ∀ n ∈ l, n.id ≠ "node" ∧ n.id ≠ "edge")
    {r : List (List Token)} {nodes : List String} {edges : List (String × String × String)}
    (hr : collect r = some (nodes, edges)) :
    collect (l.map nodeTokens ++ r) = some (l.map Node.id ++ nodes, edges) := by
  induction l with
  | nil => exact hr
  | cons n l ih =>
    obtain ⟨hn, he⟩ := hl n List.mem_cons_self
    rw [List.map_cons, List.cons_append, collect, item_nodeTokens hn he,
      ih fun m hm => hl m (List.mem_cons_of_mem n hm)]
    rfl

def document (nodes : List Node) (arrows : List Graph.Arrow) : String :=
  String.intercalate "\n" (preamble ++ nodes.map nodeLine ++ arrows.map edgeLine ++ ["\x7d"])

def nodeDefaults : List Token :=
  [.word "node", .sign '['] ++ (listed [("fontname", .text "Courier New"), ("shape", .word "box"),
    ("style", .word "filled"), ("fillcolor", .word "white")] ++ [.sign ']'])

def edgeDefaults : List Token :=
  [.word "edge", .sign '['] ++ (listed [("fontname", .text "Arial"), ("fontsize", .word "10")] ++
    [.sign ']'])

def settings : List (List Token) :=
  [listed [("rankdir", .word "TB")], listed [("splines", .word "ortho")], nodeDefaults, edgeDefaults]

theorem lexes_preamble : Lexer.Lexes signs (printed preamble)
    ([.word "digraph", .word "LogicFlow", .sign '\x7b'] ++ settings.flatMap fun s => s ++ [.sign ';']) := by
  have hbreak : Lexer.Lexes signs "\n" [] := fun _ => rfl
  have hopen : Lexer.Lexes signs "digraph LogicFlow \x7b"
      [.word "digraph", .word "LogicFlow", .sign '\x7b'] := .of_alone rfl
  have hrank : Lexer.Lexes signs "  rankdir=TB;" (listed [("rankdir", .word "TB")] ++ [.sign ';']) :=
    .of_alone rfl
  have hlines : Lexer.Lexes signs "  splines=ortho;"
      (listed [("splines", .word "ortho")] ++ [.sign ';']) := .of_alone rfl
  have hnode : Lexer.Lexes signs
      "  node [fontname=\"Courier New\", shape=box, style=filled, fillcolor=white];"
      (nodeDefaults ++ [.sign ';']) := .of_alone rfl
  have hedge : Lexer.Lexes signs "  edge [fontname=\"Arial\", fontsize=10];"
      (edgeDefaults ++ [.sign ';']) := .of_alone rfl
  simp only [preamble, printed_cons, printed_nil, String.append_empty, String.append_assoc]
  exact hopen.append (hbreak.append (hrank.append (hbreak.append (hlines.append (hbreak.append
    (hnode.append (hbreak.append (hedge.append hbreak))))))))

theorem read_document {nodes : List Node} {arrows : List Graph.Arrow}
    (hnodes : ∀ n ∈ nodes, isName n.id = true ∧ Quoting.Sealed (nodeText n).toList)
    (hids : ∀ n ∈ nodes, n.id ≠ "node" ∧ n.id ≠ "edge")
    (harrows : ∀ a ∈ arrows, isName a.source.id = true ∧ isName a.target.id = true ∧
      Quoting.Sealed a.label.toList) :
    read (document nodes arrows) = some (nodes.map Node.id, arrows.map Graph.Arrow.seen) := by
  have hclose : Lexer.Lexes signs "\x7d" [.sign '\x7d'] := fun _ => rfl
  have hlex := lexes_preamble.append
    ((Lexer.Lexes.lines fun n hn => lexes_nodeLine (hnodes n hn).1 (hnodes n hn).2).append
      ((Lexer.Lexes.lines fun a ha =>
        lexes_edgeLine (harrows a ha).1 (harrows a ha).2.1 (harrows a ha).2.2).append hclose))
  have hcut : document nodes arrows = printed preamble ++
      (printed (nodes.map nodeLine) ++ (printed (arrows.map edgeLine) ++ "\x7d")) := by
    rw [document, intercalate_concat, printed_append, printed_append]
    simp only [String.append_assoc]
  have hitems : ∀ s ∈ settings, item s = some .setting := by decide
  rw [hcut, read, hlex.lex_eq]
  simp only [List.cons_append, List.nil_append]
  rw [statements_flatMap (by decide), statements_flatMap fun n _ => semicolon_not_mem_nodeTokens n,
    statements_flatMap fun a _ => semicolon_not_mem_edgeTokens a]
  simp only [statements, Option.map_some, Option.bind_some, List.append_nil]
  rw [List.map_id', collect_settings hitems, collect_nodes hids (collect_edges arrows), List.append_nil]

end Dot

end Workbench.Flow
