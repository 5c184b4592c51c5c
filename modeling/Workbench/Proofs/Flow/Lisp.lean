import Workbench.Proofs.Flow.Lexing

/-!
# Reading nested lists

A reader for graphs that are written as nested lists. It gives nodes and edges in the order in which
they stand. What a renderer wrote is read as it was meant if all names are names and every quoted text
is closed where the renderer closed it.
-/

namespace Workbench.Flow

namespace Lisp

def signs : List Char := ['(', ')']

def readNodes : List Token → List (String × String) × List Token
  | .sign '(' :: .word _ :: .word ":id" :: .word id :: .word ":label" :: .text label :: .sign ')' :: r =>
    let (nodes, r) := readNodes r
    ((id, label) :: nodes, r)
  | r => ([], r)

def readEdges : List Token → List (String × String × String) × List Token
  | .sign '(' :: .word _ :: .word s :: .word "->" :: .word t :: .word ":label" :: .text label ::
      .sign ')' :: r =>
    let (edges, r) := readEdges r
    ((s, t, label) :: edges, r)
  | .sign '(' :: .word _ :: .word s :: .word "->" :: .word t :: .sign ')' :: r =>
    let (edges, r) := readEdges r
    ((s, t, "") :: edges, r)
  | r => ([], r)

def read (text : String) : Option (List (String × String) × List (String × String × String)) :=
  match Lexer.lex signs text with
  | some (.sign '(' :: .word "flow-graph" :: .word ":name" :: .text _ :: .sign '(' :: .word "nodes" ::
      r) =>
    match readNodes r with
    | (nodes, .sign ')' :: .sign '(' :: .word "edges" :: r) =>
      match readEdges r with
      | (edges, [.sign ')', .sign ')']) => some (nodes, edges)
      | _ => none
    | _ => none
  | _ => none

def seenLabel (n : Node) : String :=
  String.ofList (Quoting.unescape false (labelText n.label).toList)

def nodeTokens (n : Node) : List Token :=
  [.sign '(', .word n.kind.word, .word ":id", .word n.id, .word ":label", .text (seenLabel n), .sign ')']

def edgeTokens (a : Graph.Arrow) : List Token :=
  [.sign '(', .word a.kind.word, .word a.source.id, .word "->", .word a.target.id] ++
    (if a.label = "" then [] else [.word ":label", .text a.seenLabel]) ++ [.sign ')']

theorem readNodes_append (n : Node) (r : List Token) :
    readNodes (nodeTokens n ++ r) = ((n.id, seenLabel n) :: (readNodes r).1, (readNodes r).2) := rfl

theorem readEdges_append (a : Graph.Arrow) (r : List Token) :
    readEdges (edgeTokens a ++ r) = (a.seen :: (readEdges r).1, (readEdges r).2) := by
  unfold edgeTokens
  by_cases h : a.label = ""
  · have hseen : a.seen = (a.source.id, a.target.id, "") := by
      simp [Graph.Arrow.seen, Graph.Arrow.seenLabel, h, Quoting.unescape]
    rw [if_pos h, hseen]
    rfl
  · rw [if_neg h]
    rfl

theorem readNodes_flatMap (l : List Node) (r : List Token) :
    readNodes (l.flatMap nodeTokens ++ .sign ')' :: r) =
      (l.map fun n => (n.id, seenLabel n), .sign ')' :: r) := by
  induction l with
  | nil => rfl
  | cons n l ih => rw [List.flatMap_cons, List.append_assoc, readNodes_append, ih, List.map_cons]

theorem readEdges_flatMap (l : List Graph.Arrow) (r : List Token) :
    readEdges (l.flatMap edgeTokens ++ .sign ')' :: r) =
      (l.map Graph.Arrow.seen, .sign ')' :: r) := by
  induction l with
  | nil => rfl
  | cons a l ih => rw [List.flatMap_cons, List.append_assoc, readEdges_append, ih, List.map_cons]

theorem isWord_kind (k : NodeKind) : Lexer.IsWord signs k.word := by
  cases k <;> exact isWord_of_isName rfl rfl

theorem isWord_edgeKind (k : EdgeKind) : Lexer.IsWord signs k.word := by
  cases k <;> exact isWord_of_isName rfl rfl

theorem lexes_nodeLine {n : Node} (hid : isName n.id = true)
    (hlabel : Quoting.Sealed (labelText n.label).toList) :
    Lexer.Lexes signs (nodeLine n ++ "\n") (nodeTokens n) := by
  have hcut : nodeLine n ++ "\n" = "    (" ++ ((Text.padRight 6 n.kind.word ++ " ") ++ (":id " ++
      ((Text.padRight 10 n.id ++ " ") ++ (":label " ++ (("\"" ++ labelText n.label ++ "\"") ++
        ")\n"))))) := by
    apply String.toList_inj.1
    simp [nodeLine]
  have hopen : Lexer.Lexes signs "    (" [.sign '('] := fun _ => rfl
  have hkey : Lexer.Lexes signs ":id " [.word ":id"] := fun _ => rfl
  have hkey' : Lexer.Lexes signs ":label " [.word ":label"] := fun _ => rfl
  have hclose : Lexer.Lexes signs ")\n" [.sign ')'] := fun _ => rfl
  rw [hcut]
  exact hopen.append ((Lexer.Lexes.padded (isWord_kind n.kind) 6).append (hkey.append
    ((Lexer.Lexes.padded (isWord_of_isName rfl hid) 10).append (hkey'.append
      ((Lexer.Lexes.quoted hlabel).append hclose)))))

theorem lexes_edgeLine {a : Graph.Arrow} (hs : isName a.source.id = true)
    (ht : isName a.target.id = true) (hlabel : Quoting.Sealed a.label.toList) :
    Lexer.Lexes signs (edgeLine a ++ "\n") (edgeTokens a) := by
  have hopen : Lexer.Lexes signs "    (" [.sign '('] := fun _ => rfl
  have harrow : Lexer.Lexes signs "-> " [.word "->"] := fun _ => rfl
  have htarget : Lexer.IsWord signs a.target.id := isWord_of_isName rfl ht
  have hhead := hopen.append ((Lexer.Lexes.padded (isWord_edgeKind a.kind) 8).append
    ((Lexer.Lexes.word_blank (isWord_of_isName rfl hs)).append harrow))
  by_cases h : a.label = ""
  · have hcut : edgeLine a ++ "\n" =
        "    (" ++ (Text.padRight 8 a.kind.word ++ " " ++ (a.source.id ++ " " ++ "-> ")) ++
          (a.target.id ++ String.singleton ')' ++ "\n") := by
      apply String.toList_inj.1
      simp [edgeLine, h]
    have hend : Lexer.Lexes signs "\n" [] := fun _ => rfl
    rw [hcut, edgeTokens, if_pos h]
    exact hhead.append ((Lexer.Lexes.word_sign htarget (by decide) (by decide)).append hend)
  · have hcut : edgeLine a ++ "\n" =
        "    (" ++ (Text.padRight 8 a.kind.word ++ " " ++ (a.source.id ++ " " ++ "-> ")) ++
          ((a.target.id ++ " ") ++ (":label " ++ (("\"" ++ a.label ++ "\"") ++ ")\n"))) := by
      apply String.toList_inj.1
      simp [edgeLine, h]
    have hkey : Lexer.Lexes signs ":label " [.word ":label"] := fun _ => rfl
    have hclose : Lexer.Lexes signs ")\n" [.sign ')'] := fun _ => rfl
    rw [hcut, edgeTokens, if_neg h]
    exact hhead.append ((Lexer.Lexes.word_blank htarget).append
      (hkey.append ((Lexer.Lexes.quoted hlabel).append hclose)))

def document (name : String) (nodes : List Node) (arrows : List Graph.Arrow) : String :=
  String.intercalate "\n" (["(flow-graph :name \"" ++ name ++ "\"", "  (nodes"] ++ nodes.map nodeLine ++
    ["  )", "  (edges"] ++ arrows.map edgeLine ++ ["  )", ")"])

theorem read_document {name : String} {nodes : List Node} {arrows : List Graph.Arrow}
    (hname : Quoting.Sealed name.toList)
    (hnodes : ∀ n ∈ nodes, isName n.id = true ∧ Quoting.Sealed (labelText n.label).toList)
    (harrows : ∀ a ∈ arrows, isName a.source.id = true ∧ isName a.target.id = true ∧
      Quoting.Sealed a.label.toList) :
    read (document name nodes arrows) =
      some (nodes.map fun n => (n.id, seenLabel n), arrows.map Graph.Arrow.seen) := by
  have hopen : Lexer.Lexes signs "(flow-graph :name " [.sign '(', .word "flow-graph", .word ":name"] :=
    fun _ => rfl
  have hmid : Lexer.Lexes signs "\n  (nodes\n" [.sign '(', .word "nodes"] := fun _ => rfl
  have hmid' : Lexer.Lexes signs "  )\n  (edges\n" [.sign ')', .sign '(', .word "edges"] := fun _ => rfl
  have hclose : Lexer.Lexes signs "  )\n)" [.sign ')', .sign ')'] := fun _ => rfl
  have hlex := hopen.append ((Lexer.Lexes.quoted hname).append (hmid.append
    ((Lexer.Lexes.lines fun n hn => lexes_nodeLine (hnodes n hn).1 (hnodes n hn).2).append
      (hmid'.append ((Lexer.Lexes.lines fun a ha =>
        lexes_edgeLine (harrows a ha).1 (harrows a ha).2.1 (harrows a ha).2.2).append hclose)))))
  have hcut : document name nodes arrows = "(flow-graph :name " ++ ("\"" ++ name ++ "\"" ++
      ("\n  (nodes\n" ++ (printed (nodes.map nodeLine) ++ ("  )\n  (edges\n" ++
        (printed (arrows.map edgeLine) ++ "  )\n)"))))) := by
    have hlines : document name nodes arrows = String.intercalate "\n"
        ((["(flow-graph :name \"" ++ name ++ "\"", "  (nodes"] ++ nodes.map nodeLine ++
          ["  )", "  (edges"] ++ arrows.map edgeLine ++ ["  )"]) ++ [")"]) := by
      simp [document]
    rw [hlines, intercalate_concat]
    apply String.toList_inj.1
    simp [printed_append]
  rw [hcut, read, hlex.lex_eq]
  simp only [List.cons_append, List.nil_append]
  rw [readNodes_flatMap]
  simp only [readEdges_flatMap]

end Lisp

end Workbench.Flow
