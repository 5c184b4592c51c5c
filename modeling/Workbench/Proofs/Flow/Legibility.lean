import Workbench.Proofs.Flow.Links
import Workbench.Proofs.Flow.Lisp
import Workbench.Proofs.Flow.Dot

/-!
# What can be read back

Which graphs can be read back from their renderings. The tool puts a backslash before each quote in
the label of a node, but writes labels of edges and descriptions as they stand, and does nothing about
backslashes of the text itself; and the names in an atlas have file names in them. So a rendering is
faithful exactly if backslashes come in pairs where it matters, no edge has a quote in its label, and
the scopes of an atlas are names.
-/

namespace Workbench.Flow

open Quoting

/-! ## Nodes and edges of a filled graph -/

namespace Graph

def Arrow.triple (a : Arrow) : String × String × String := (a.source.id, a.target.id, a.label)

variable {g : Graph}

theorem Filled.nodes_eq (hg : g.Filled) : g.nodes = .ok g.content := by
  have key (f : Vertex → Except GraphFault Node) (hf : ∀ n : Node, f ⟨n.id, some n⟩ = .ok n)
      (l : List Node) : (l.map fun n => (⟨n.id, some n⟩ : Vertex)).mapM f = .ok l := by
    induction l with
    | nil => rfl
    | cons n l ih =>
      rw [List.map_cons, List.mapM_cons, ih, hf]
      rfl
  rw [nodes, hg.vertices_eq]
  exact key _ (fun _ => rfl) g.content

theorem Filled.arrow_eq (hg : g.Filled) {e : Edge} (he : e ∈ g.edges) :
    ∃ a, g.arrow e = .ok a ∧ g.Has a.source ∧ g.Has a.target ∧
      a.triple = (e.source, e.target, e.label) := by
  obtain ⟨s, hs, hsid⟩ := hg.exists_has (hg.source e he)
  obtain ⟨t, ht, htid⟩ := hg.exists_has (hg.target e he)
  refine ⟨⟨s, t, e.kind, e.label⟩, ?_, hs, ht, ?_⟩
  · rw [arrow, node, node, hg.node?_eq_some_iff.2 ⟨hs, hsid⟩, hg.node?_eq_some_iff.2 ⟨ht, htid⟩]
    rfl
  · rw [Arrow.triple, hsid, htid]

theorem Filled.mem_arranged (hg : g.Filled) {e : Edge} : e ∈ g.arranged ↔ e ∈ g.edges := by
  refine ⟨mem_arranged_of, fun he => ?_⟩
  obtain ⟨n, hn, hid⟩ := hg.exists_has (hg.source e he)
  exact List.mem_flatMap.2 ⟨_, hn, List.mem_filter.2 ⟨he, by simp [hid]⟩⟩

theorem Filled.arrows_eq (hg : g.Filled) : ∃ as, g.arrows = .ok as ∧
    (∀ a ∈ as, g.Has a.source ∧ g.Has a.target) ∧
    as.map Arrow.triple = g.arranged.map fun e => (e.source, e.target, e.label) := by
  have key : ∀ l : List Edge, (∀ e ∈ l, e ∈ g.edges) → ∃ as, l.mapM g.arrow = .ok as ∧
      (∀ a ∈ as, g.Has a.source ∧ g.Has a.target) ∧
      as.map Arrow.triple = l.map fun e => (e.source, e.target, e.label) := by
    intro l hl
    induction l with
    | nil => exact ⟨[], rfl, by simp, rfl⟩
    | cons e l ih =>
      obtain ⟨a, ha, hs, ht, htriple⟩ := hg.arrow_eq (hl e List.mem_cons_self)
      obtain ⟨as, has, hends, htriples⟩ := ih fun x hx => hl x (List.mem_cons_of_mem e hx)
      refine ⟨a :: as, ?_, ?_, ?_⟩
      · rw [List.mapM_cons, ha, has]
        rfl
      · intro b hb
        rcases List.mem_cons.1 hb with rfl | hb
        · exact ⟨hs, ht⟩
        · exact hends b hb
      · rw [List.map_cons, List.map_cons, htriple, htriples]
  exact key g.arranged fun e => mem_arranged_of

end Graph

/-! ## Labels of edges -/

/-- No edge has a quote in its label, or a backslash that would take the closing quote away. -/
def Graph.EdgesClear (g : Graph) : Prop :=
  ∀ e ∈ g.edges, '"' ∉ e.label.toList ∧ escapes e.label.toList = false

theorem Graph.EdgesClear.sealed {g : Graph} (h : g.EdgesClear) : ∀ e ∈ g.edges, Sealed e.label.toList :=
  fun e he => sealed_of_not_mem (h e he).1 (h e he).2

section
variable {g : Graph} {as : List Graph.Arrow} (hg : g.Filled)
  (has : as.map Graph.Arrow.triple = g.arranged.map fun e => (e.source, e.target, e.label))
include hg has

/-- Among labels that are closed where they should be, those without quotes are read as they are. -/
theorem Graph.Filled.edgesClear_iff (hsealed : ∀ e ∈ g.edges, Sealed e.label.toList) :
    g.EdgesClear ↔
      as.map Graph.Arrow.seen = g.arranged.map fun e => (e.source, e.target, e.label) := by
  have hlabels : ∀ label, (∃ a ∈ as, a.label = label) ↔ ∃ e ∈ g.edges, e.label = label := by
    intro label
    have h := congrArg (fun l => label ∈ l.map fun t : String × String × String => t.2.2) has
    simpa [Graph.Arrow.triple, hg.mem_arranged] using h
  rw [← has, List.map_inj_left]
  constructor
  · intro h a ha
    obtain ⟨e, he, hlabel⟩ := (hlabels a.label).1 ⟨a, ha, rfl⟩
    have hq := (h e he).1
    rw [hlabel] at hq
    rw [Graph.Arrow.seen, Graph.Arrow.triple, Graph.Arrow.seenLabel, unescape_of_not_mem hq]
    simp
  · intro h e he
    obtain ⟨a, ha, hlabel⟩ := (hlabels e.label).2 ⟨e, he, rfl⟩
    have hsame : a.seenLabel = a.label := congrArg (fun t => t.2.2) (h a ha)
    refine ⟨(hsealed e he).unescape_eq_iff.1 ?_, (hsealed e he).2⟩
    rw [← hlabel]
    simpa [Graph.Arrow.seenLabel] using congrArg String.toList hsame

theorem Graph.Filled.sealed_arrows (hends : ∀ a ∈ as, g.Has a.source ∧ g.Has a.target)
    (hsealed : ∀ e ∈ g.edges, Sealed e.label.toList) (hnames : ∀ id ∈ g.ids, isName id = true) :
    ∀ a ∈ as, isName a.source.id = true ∧ isName a.target.id = true ∧ Sealed a.label.toList := by
  intro a ha
  have hmem : a.triple ∈ g.arranged.map fun e => (e.source, e.target, e.label) :=
    has ▸ List.mem_map_of_mem ha
  obtain ⟨e, he, heq⟩ := List.mem_map.1 hmem
  have hlabel : e.label = a.label := congrArg (fun t => t.2.2) heq
  exact ⟨hnames _ (Graph.mem_ids_of_has (hends a ha).1), hnames _ (Graph.mem_ids_of_has (hends a ha).2),
    hlabel ▸ hsealed e (hg.mem_arranged.1 he)⟩

/-- The argument for both ways to write a graph. Once the texts of nodes and edges are closed where
they should be and names are names, all is read as it was written; then only quotes in the labels of
edges can make a difference. -/
theorem Graph.Filled.decoded_iff {α : Type} {nodes : α} {written clear : Node → Prop}
    {decoded : Option (α × List (String × String × String))} (hclear : ∀ n, written n ↔ clear n)
    (hread : (∀ n, g.Has n → written n) → (∀ e ∈ g.edges, Sealed e.label.toList) →
      (∀ id ∈ g.ids, isName id = true) → decoded = some (nodes, as.map Graph.Arrow.seen)) :
    ((∀ n, g.Has n → written n) ∧ (∀ e ∈ g.edges, Sealed e.label.toList) ∧
        (∀ id ∈ g.ids, isName id = true) ∧
        decoded = some (nodes, g.arranged.map fun e => (e.source, e.target, e.label))) ↔
      ((∀ n, g.Has n → clear n) ∧ g.EdgesClear) ∧ ∀ id ∈ g.ids, isName id = true := by
  constructor
  · rintro ⟨hwritten, hsealed, hnames, hdecoded⟩
    rw [hread hwritten hsealed hnames] at hdecoded
    have hedges := (Prod.mk.inj (Option.some.inj hdecoded)).2
    exact ⟨⟨fun n hn => (hclear n).1 (hwritten n hn), (hg.edgesClear_iff has hsealed).2 hedges⟩, hnames⟩
  · rintro ⟨⟨hnodes, hedges⟩, hnames⟩
    have hwritten : ∀ n, g.Has n → written n := fun n hn => (hclear n).2 (hnodes n hn)
    refine ⟨hwritten, hedges.sealed, hnames, ?_⟩
    rw [hread hwritten hedges.sealed hnames, (hg.edgesClear_iff has hedges.sealed).1 hedges]

end

/-! ## Nested lists -/

namespace Lisp

/-- The backslashes in labels of nodes come in pairs where it matters, and edges are clear. -/
def Legible (g : Graph) : Prop := (∀ n, g.Has n → Paired n.label.toList) ∧ g.EdgesClear

/-- A text that can be read back: every label is closed where the renderer closed it, every name is a
name, and what is read is what the graph holds. -/
structure Faithful (g : Graph) (text : String) : Prop where
  labels : ∀ n, g.Has n → Sealed (labelText n.label).toList
  edgeLabels : ∀ e ∈ g.edges, Sealed e.label.toList
  names : ∀ id ∈ g.ids, isName id = true
  decoded : read text = some
    (g.content.map fun n => (n.id, String.ofList (n.label.toList.map onOneLine)),
     g.arranged.map fun e => (e.source, e.target, e.label))

theorem sealed_labelText_iff (s : String) : Sealed (labelText s).toList ↔ Paired s.toList := by
  rw [labelText, String.toList_ofList, writes_lisp.sealed_iff]

theorem seenLabel_eq {n : Node} (h : Paired n.label.toList) :
    seenLabel n = String.ofList (n.label.toList.map onOneLine) := by
  rw [seenLabel, labelText, String.toList_ofList, writes_lisp.unescape (paired_iff.1 h)]
  simp

theorem faithful_iff {g : Graph} (hg : g.Filled) (hname : Sealed g.name.toList) :
    ∃ text, g.lisp = .ok text ∧
      (Faithful g text ↔ Legible g ∧ ∀ id ∈ g.ids, isName id = true) := by
  obtain ⟨as, has, hends, htriples⟩ := hg.arrows_eq
  refine ⟨document g.name g.content as, ?_, ?_⟩
  · rw [Graph.lisp, hg.nodes_eq, has]
    rfl
  refine Iff.trans (b := _ ∧ _ ∧ _ ∧ _) ⟨fun h => ⟨h.labels, h.edgeLabels, h.names, h.decoded⟩,
    fun h => ⟨h.1, h.2.1, h.2.2.1, h.2.2.2⟩⟩
    (hg.decoded_iff htriples (fun n => sealed_labelText_iff n.label) fun hlabels hedges hnames => ?_)
  have hnodes : ∀ n ∈ g.content, isName n.id = true ∧ Sealed (labelText n.label).toList :=
    fun n hn => ⟨hnames _ (Graph.mem_ids_of_has (hg.has_iff.2 hn)), hlabels n (hg.has_iff.2 hn)⟩
  have hseen : (g.content.map fun n => (n.id, seenLabel n)) =
      g.content.map fun n => (n.id, String.ofList (n.label.toList.map onOneLine)) :=
    List.map_congr_left fun n hn => by
      rw [seenLabel_eq ((sealed_labelText_iff _).1 (hnodes n hn).2)]
  have h := read_document hname hnodes (hg.sealed_arrows htriples hends hedges hnames)
  rw [hseen] at h
  exact h

end Lisp

/-! ## Pictures -/

namespace Dot

/-- The text of a node is closed where it should be. A description ends with a bracket, so the
backslashes at the end of the label matter only if there is none. -/
def ClearNode (n : Node) : Prop :=
  if n.description.truthy then Quotes false n.label.toList ∧ Quotes true n.description.display.toList
  else Paired n.label.toList

def Legible (g : Graph) : Prop := (∀ n, g.Has n → ClearNode n) ∧ g.EdgesClear

structure Faithful (g : Graph) (text : String) : Prop where
  texts : ∀ n, g.Has n → Sealed (nodeText n).toList
  edgeLabels : ∀ e ∈ g.edges, Sealed e.label.toList
  names : ∀ id ∈ g.ids, isName id = true
  decoded : read text = some (g.ids, g.arranged.map fun e => (e.source, e.target, e.label))

/-- After the backslash that breaks the line, it is forgotten what stood before. -/
theorem scan_description (b : Bool) (s : List Char) :
    scan true b ('\\' :: 'n' :: '(' :: (s ++ [')'])) = some false ↔ Quotes true s := by
  have hstart : scan true b ('\\' :: 'n' :: '(' :: (s ++ [')'])) = scan true false (s ++ [')']) := by
    cases b <;> rfl
  rw [hstart, scan_append, quotes_iff]
  cases scan true false s with
  | none => simp
  | some e => simp [scan]

theorem sealed_nodeText_iff (n : Node) : Sealed (nodeText n).toList ↔ ClearNode n := by
  unfold nodeText ClearNode
  by_cases h : n.description.truthy = true
  · have hlist : (String.ofList (n.label.toList.flatMap labelChar) ++
        ("\\n(" ++ n.description.display ++ ")")).toList = n.label.toList.flatMap labelChar ++
          ('\\' :: 'n' :: '(' :: (n.description.display.toList ++ [')'])) := by
      simp
    rw [if_pos h, if_pos h, hlist, sealed_iff, scan_append, writes_dot.scan, quotes_iff]
    cases scan false false n.label.toList with
    | none => simp
    | some b => simp [scan_description]
  · rw [if_neg h, if_neg h, String.append_empty, String.toList_ofList]
    exact writes_dot.sealed_iff _

theorem faithful_iff {g : Graph} (hg : g.Filled) (hids : ∀ id ∈ g.ids, id ≠ "node" ∧ id ≠ "edge") :
    ∃ text, g.dot = .ok text ∧
      (Faithful g text ↔ Legible g ∧ ∀ id ∈ g.ids, isName id = true) := by
  obtain ⟨as, has, hends, htriples⟩ := hg.arrows_eq
  refine ⟨document g.content as, ?_, ?_⟩
  · rw [Graph.dot, hg.nodes_eq, has]
    rfl
  refine Iff.trans (b := _ ∧ _ ∧ _ ∧ _) ⟨fun h => ⟨h.texts, h.edgeLabels, h.names, h.decoded⟩,
    fun h => ⟨h.1, h.2.1, h.2.2.1, h.2.2.2⟩⟩
    (hg.decoded_iff htriples sealed_nodeText_iff fun htexts hedges hnames => ?_)
  rw [hg.ids_eq]
  refine read_document (fun n hn => ?_) (fun n hn => ?_)
    (hg.sealed_arrows htriples hends hedges hnames)
  · exact ⟨hnames _ (Graph.mem_ids_of_has (hg.has_iff.2 hn)), htexts n (hg.has_iff.2 hn)⟩
  · exact hids _ (Graph.mem_ids_of_has (hg.has_iff.2 hn))

end Dot

/-! ## The graphs that the tool renders -/

/-- The graph of a function, and the atlas of a project with the scopes of its functions. -/
inductive Rendered : List String → Graph → Prop where
  | function {dialect : Dialect} {code : Bytes} {settings : Option Value} {t : Tree} {g : Graph} :
      graphOf dialect code settings t = .ok g → Rendered [] g
  | atlas (settings : Option Value) (project : String) (cs : List Chapter) :
      Rendered ((cs.filter fun c => (c.fault? settings).isNone).flatMap fun c =>
        (c.parts settings project).map Prod.fst) (atlasOf settings project cs).graph

theorem all_inName_nodeId (k : NodeKind) (i : Nat) : (nodeId k i).toList.all inName = true := by
  have hword : k.word.toList.all inName = true := by cases k <;> decide
  have hdigits : (Decimal.digitText i).toList.all inName = true := by
    rw [Decimal.digitText, String.toList_ofList, List.all_eq_true]
    intro c hc
    have hd : c.isDigit = true := Nat.isDigit_of_mem_toDigits (by decide) (by decide) hc
    rw [inName, hd, Bool.or_true]
  rw [toList_nodeId, List.all_append, List.all_cons, hword, hdigits]
  rfl

theorem isName_nodeId (k : NodeKind) (i : Nat) : isName (nodeId k i) = true := by
  have hhead : (nodeId k i).toList.head?.any startsName = true := by
    rw [toList_nodeId]
    cases k <;> rfl
  rw [isName, hhead, all_inName_nodeId]
  rfl

theorem isName_scopedId {s : String} (hs : s ≠ "") (k : NodeKind) (i : Nat) :
    isName (scopedId s (nodeId k i)) = isName s := by
  rw [isName, isName, toList_scopedId, List.all_append, List.all_cons, all_inName_nodeId]
  cases hl : s.toList with
  | nil => exact absurd (String.toList_eq_nil_iff.1 hl) hs
  | cons c l =>
    have hlow : inName '_' = true := by decide
    rw [hlow, Bool.and_true, Bool.and_true]
    rfl

theorem scopedId_ne_empty (s id : String) : scopedId s id ≠ "" := by
  intro h
  have hl := congrArg String.toList h
  rw [toList_scopedId] at hl
  exact List.append_ne_nil_of_right_ne_nil _ (List.cons_ne_nil _ _) hl

theorem Graph.name_merge (g h : Graph) (s : String) : (g.merge h s).2.name = g.name :=
  congrArg Prod.fst (margin_merge g h s)

theorem name_atlasOf (settings : Option Value) (project : String) (cs : List Chapter) :
    (atlasOf settings project cs).graph.name = "ProjectAtlas" := by
  have hfold : ∀ (l : List (String × Graph)) (g : Graph),
      (l.foldl (fun g p => (g.merge p.2 (flatPath project p.1)).2) g).name = g.name := by
    intro l
    induction l with
    | nil => exact fun g => rfl
    | cons p l ih => exact fun g => (ih _).trans (Graph.name_merge _ _ _)
  rw [atlasOf_eq_links]
  exact hfold _ _

section
variable {scopes : List String} {g : Graph}

theorem Rendered.filled (h : Rendered scopes g) : g.Filled := by
  cases h with
  | function h => exact (ofFunction_of_graphOf h).tidy.toFilled
  | atlas settings project cs => exact filled_atlasOf settings project cs

/-- The names in a rendered graph: of a function, by kind and number alone; in an atlas, under the
scopes. -/
theorem Rendered.mem_ids (h : Rendered scopes g) {id : String} (hid : id ∈ g.ids) :
    ∃ k i, id = nodeId k i ∨ ∃ s ∈ scopes, s ≠ "" ∧ id = scopedId s (nodeId k i) := by
  cases h with
  | function h =>
    obtain ⟨k, i, rfl⟩ := (ofFunction_of_graphOf h).named id hid
    exact ⟨k, i, .inl rfl⟩
  | atlas settings project cs =>
    rw [ids_atlasOf] at hid
    obtain ⟨c, hc, hf, p, hp, i, hi, rfl⟩ := ((tidy_mergedOf settings project cs).2 id).1 hid
    obtain ⟨f, hdrawn, rfl⟩ := List.mem_map.1 hp
    obtain ⟨k, m, rfl⟩ := (Chapter.ofFunction_of_drawn hdrawn).named i hi
    have hwhole : (c.fault? settings).isNone = true := by rw [hf]; rfl
    have hscope : scopedId (flatPath project c.path) f.title ∈
        (c.parts settings project).map Prod.fst := List.mem_map.2 ⟨_, hp, rfl⟩
    exact ⟨k, m, .inr ⟨_, List.mem_flatMap.2 ⟨c, List.mem_filter.2 ⟨hc, hwhole⟩, hscope⟩,
      scopedId_ne_empty _ _, rfl⟩⟩

theorem Rendered.mem_scopes (h : Rendered scopes g) {s : String} (hs : s ∈ scopes) :
    s ≠ "" ∧ scopedId s (nodeId .block 1) ∈ g.ids := by
  cases h with
  | function h => cases hs
  | atlas settings project cs =>
    obtain ⟨c, hc, hs⟩ := List.mem_flatMap.1 hs
    obtain ⟨hc, hf⟩ := List.mem_filter.1 hc
    obtain ⟨p, hp, rfl⟩ := List.mem_map.1 hs
    obtain ⟨f, hdrawn, rfl⟩ := List.mem_map.1 hp
    refine ⟨scopedId_ne_empty _ _, ?_⟩
    rw [ids_atlasOf]
    exact ((tidy_mergedOf settings project cs).2 _).2 ⟨c, hc, Option.isNone_iff_eq_none.1 hf, _, hp, _,
      (Chapter.ofFunction_of_drawn hdrawn).mem_ids, rfl⟩

theorem Rendered.isName_iff (h : Rendered scopes g) :
    (∀ id ∈ g.ids, isName id = true) ↔ ∀ s ∈ scopes, isName s = true := by
  constructor
  · intro hids s hs
    obtain ⟨hne, hmem⟩ := h.mem_scopes hs
    rw [← isName_scopedId hne .block 1]
    exact hids _ hmem
  · intro hscopes id hid
    obtain ⟨k, i, rfl | ⟨s, hs, hne, rfl⟩⟩ := h.mem_ids hid
    · exact isName_nodeId k i
    · rw [isName_scopedId hne]
      exact hscopes s hs

theorem Rendered.id_ne (h : Rendered scopes g) : ∀ id ∈ g.ids, id ≠ "node" ∧ id ≠ "edge" := by
  intro id hid
  have hlow : '_' ∈ id.toList := by
    obtain ⟨k, i, rfl | ⟨s, -, -, rfl⟩⟩ := h.mem_ids hid
    · simp [toList_nodeId]
    · simp [toList_scopedId]
  constructor
  · rintro rfl
    exact absurd hlow (by decide)
  · rintro rfl
    exact absurd hlow (by decide)

theorem Rendered.sealed_name (h : Rendered scopes g) : Sealed g.name.toList := by
  rw [sealed_iff]
  cases h with
  | @function dialect _ _ _ _ h =>
    obtain ⟨d, hd, rfl⟩ := graphOf_eq_ok h
    rw [(unlinked_of_draft hd).1]
    cases dialect <;> decide
  | atlas settings project cs =>
    rw [name_atlasOf]
    decide

end

/-- Every rendered graph is written in both ways. Each way it can be read back exactly if the labels
are legible in that way and the scopes of the atlas, if it is one, are names. -/
theorem rendered_faithful_iff {scopes : List String} {g : Graph} (h : Rendered scopes g) :
    (∃ text, g.lisp = .ok text ∧
      (Lisp.Faithful g text ↔ Lisp.Legible g ∧ ∀ s ∈ scopes, isName s = true)) ∧
    ∃ text, g.dot = .ok text ∧
      (Dot.Faithful g text ↔ Dot.Legible g ∧ ∀ s ∈ scopes, isName s = true) := by
  rw [← h.isName_iff]
  exact ⟨Lisp.faithful_iff h.filled h.sealed_name, Dot.faithful_iff h.filled h.id_ne⟩

def quotedCode : Bytes := "fn f(s: &str) \x7b match s \x7b \"a\" => x(), _ => y() \x7d \x7d".toUTF8.toList

def quotedArm : Tree :=
  .node "function_item" 0 50 none
    [.node "identifier" 3 4 (some "name") [],
     .node "block" 14 50 (some "body")
      [.node "expression_statement" 16 48 none
        [.node "match_expression" 16 48 none
          [.node "identifier" 22 23 (some "value") [],
           .node "match_block" 24 48 (some "body")
            [.node "match_arm" 26 36 none
              [.node "match_pattern" 26 29 (some "pattern") [],
               .node "call_expression" 33 36 (some "value")
                [.node "identifier" 33 34 (some "function") []]],
             .node "match_arm" 38 46 none
              [.node "match_pattern" 38 39 (some "pattern") [],
               .node "call_expression" 43 46 (some "value")
                [.node "identifier" 43 44 (some "function") []]]]]]]]

theorem quotedArm_unreadable : ∃ g, Rendered [] g ∧
    (∃ text, g.lisp = .ok text ∧ ¬ Lisp.Faithful g text) ∧
      ∃ text, g.dot = .ok text ∧ ¬ Dot.Faithful g text := by
  obtain ⟨g, hg, e, he, hq⟩ : ∃ g, graphOf .braces quotedCode none quotedArm = .ok g ∧
      ∃ e ∈ g.edges, '"' ∈ e.label.toList := by
    have h : (match graphOf .braces quotedCode none quotedArm with
        | .ok g => decide (∃ e ∈ g.edges, '"' ∈ e.label.toList)
        | .error _ => false) = true := by decide +kernel
    split at h
    next g hg => exact ⟨g, hg, of_decide_eq_true h⟩
    next => cases h
  have hunclear : ¬ g.EdgesClear := fun h => (h e he).1 hq
  obtain ⟨⟨lisp, hl, hlisp⟩, dot, hd, hdot⟩ := rendered_faithful_iff (.function hg)
  exact ⟨g, .function hg, ⟨lisp, hl, fun h => hunclear (hlisp.1 h).1.2⟩,
    dot, hd, fun h => hunclear (hdot.1 h).1.2⟩

end Workbench.Flow
