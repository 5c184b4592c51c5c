import Workbench.Proofs.Flow.Conflation
import Workbench.Proofs.Flow.Legibility
import Mathlib.Data.List.Flatten
import Mathlib.Data.Prod.Basic

/-!
# Disjoint unions

Graphs that are merged into an empty one under different scopes come to stand side by side: first all
nodes of the first graph, then all of the second, and so on, and the edges likewise. A scope may have
low lines, as names of nodes do. But a name that was never merged has exactly one, so two cuts from the
end separate it from any scope.
-/

namespace Workbench.Flow

/-! ## Taking names apart -/

def cutLast (l : List Char) : List Char × List Char :=
  ((l.reverse.dropWhile (· != '_')).tail.reverse, (l.reverse.takeWhile (· != '_')).reverse)

theorem cutLast_append {x : List Char} (hx : '_' ∉ x) (a : List Char) :
    cutLast (a ++ '_' :: x) = (a, x) := by
  have hrev : ∀ c ∈ x.reverse, (c != '_') = true := by
    intro c hc
    rw [bne_iff_ne]
    rintro rfl
    exact hx (List.mem_reverse.1 hc)
  have hsplit : (a ++ '_' :: x).reverse = x.reverse ++ '_' :: a.reverse := by simp
  rw [cutLast, hsplit, List.dropWhile_append_of_pos hrev, List.takeWhile_append_of_pos hrev]
  simp

/-- The scope of a merged name and the name before it was merged, which has a single low line. -/
def unscoped (id : String) : String × String :=
  let (front, number) := cutLast id.toList
  let (scope, word) := cutLast front
  (String.ofList scope, String.ofList (word ++ '_' :: number))

theorem unscoped_scopedId (s : String) (k : NodeKind) (i : Nat) :
    unscoped (scopedId s (nodeId k i)) = (s, nodeId k i) := by
  have hl : (scopedId s (nodeId k i)).toList =
      (s.toList ++ '_' :: k.word.toList) ++ '_' :: (Decimal.digitText i).toList := by
    rw [toList_scopedId, toList_nodeId, List.append_assoc, List.cons_append]
  rw [unscoped, hl, cutLast_append (lowLine_not_mem_digits i)]
  dsimp only
  rw [cutLast_append (lowLine_not_mem_word k), ← toList_nodeId, String.ofList_toList,
    String.ofList_toList]

/-! ## Graphs that were never merged into -/

def Edge.ends (e : Edge) : String × String := (e.source, e.target)

namespace Graph

section
variable {g h u : Graph} {n : Node} {e : Edge} {id s : String}

theorem linked_iff_mem_ends : g.Linked e.source e.target ↔ e.ends ∈ g.edges.map Edge.ends := by
  simp [Linked, Edge.ends]

theorem nodup_ends_addEdge (h : (g.edges.map Edge.ends).Nodup) (e : Edge) :
    ((g.addEdge e).edges.map Edge.ends).Nodup := by
  simp only [addEdge, touch_edges]
  split
  next =>
    -- the new edge has the ends of the one whose place it takes
    have hsame : (g.edges.map fun d => if d.source == e.source && d.target == e.target then e else d).map
        Edge.ends = g.edges.map Edge.ends := by
      rw [List.map_map]
      refine List.map_congr_left fun d _ => ?_
      by_cases hd : d.source = e.source ∧ d.target = e.target <;> simp [hd, Edge.ends]
    rwa [hsame]
  next hnew =>
    have hends : e.ends ∉ g.edges.map Edge.ends := by
      rw [← linked_iff_mem_ends]
      simpa [Linked] using hnew
    rw [List.map_append, List.nodup_append]
    refine ⟨h, List.nodup_singleton _, ?_⟩
    rintro a ha b hb rfl
    exact hends (List.mem_singleton.1 hb ▸ ha)

/-- No name has a scope, and there is one edge at most from a node to another. -/
structure Unmerged (g : Graph) : Prop extends Filled g where
  named : ∀ id ∈ g.ids, ∃ k i, id = nodeId k i
  ends : (g.edges.map Edge.ends).Nodup

inductive Made : Graph → Prop where
  | drawn {dialect : Dialect} {code : Bytes} {settings : Option Value} {t : Tree} {g : Graph} :
      graphOf dialect code settings t = .ok g → Made g
  | empty (name : String) : Made (.empty name)
  | addNode {g : Graph} (kind : NodeKind) (label : Label) (description : Value) :
      Made g → Made (g.addNode kind label description).2
  | addEdge {g : Graph} (e : Edge) :
      e.source ∈ g.ids → e.target ∈ g.ids → Made g → Made (g.addEdge e)
  | setEntry {g : Graph} (id : String) : Made g → Made (g.setEntry id)

theorem lasting_ends : Lasting fun d => (d.graph.edges.map Edge.ends).Nodup where
  node := by
    intro d kind label hd
    have hedges : (d.withNode kind label).graph.edges = d.graph.edges := edges_put _ _
    rwa [hedges]
  edge := fun _ _ _ _ _ _ hd => nodup_ends_addEdge hd _
  loops := fun _ _ hd => hd

theorem Made.unmerged (hg : g.Made) : g.Unmerged := by
  induction hg with
  | drawn hdrawn =>
    obtain ⟨htidy, hnamed, -⟩ := ofFunction_of_graphOf hdrawn
    obtain ⟨d, hd, rfl⟩ := graphOf_eq_ok hdrawn
    refine ⟨htidy.toFilled, hnamed, lasting_ends.of_draft (fun f s v => ?_) hd⟩
    rw [f.edges_opened]
    exact List.nodup_nil
  | empty name => exact ⟨(tidy_empty name).toFilled, by simp [Graph.empty, ids], List.nodup_nil⟩
  | @addNode g kind label description _ ih =>
    have hbase : { g with counter := g.counter + 1 }.Filled := ⟨ih.vertex, ih.nodup, ih.source, ih.target⟩
    refine ⟨hbase.put _, fun id hid => ?_, ?_⟩
    · rcases mem_ids_put.1 hid with hid | rfl
      · exact ih.named id hid
      · exact ⟨kind, g.counter + 1, rfl⟩
    · rw [Graph.addNode, edges_put]
      exact ih.ends
  | addEdge e hs ht _ ih =>
    refine ⟨ih.toFilled.addEdge hs ht, ?_, nodup_ends_addEdge ih.ends e⟩
    rw [ids, vertices_addEdge hs ht]
    exact ih.named
  | setEntry id _ ih => exact ⟨⟨ih.vertex, ih.nodup, ih.source, ih.target⟩, ih.named, ih.ends⟩

/-! ## Edges grouped by their sources -/

def grouped (vs : List Vertex) (es : List Edge) : List Edge :=
  vs.flatMap fun v => es.filter fun e => e.source == v.id

theorem grouped_append {vs ws : List Vertex} {es fs : List Edge}
    (h₁ : ∀ e ∈ fs, ∀ v ∈ vs, e.source ≠ v.id) (h₂ : ∀ e ∈ es, ∀ v ∈ ws, e.source ≠ v.id) :
    grouped (vs ++ ws) (es ++ fs) = grouped vs es ++ grouped ws fs := by
  unfold grouped
  rw [List.flatMap_append]
  congr 1
  · refine List.flatMap_congr fun v hv => ?_
    have hnone : fs.filter (fun e => e.source == v.id) = [] :=
      List.filter_eq_nil_iff.2 fun e he => by simpa using h₁ e he v hv
    rw [List.filter_append, hnone, List.append_nil]
  · refine List.flatMap_congr fun v hv => ?_
    have hnone : es.filter (fun e => e.source == v.id) = [] :=
      List.filter_eq_nil_iff.2 fun e he => by simpa using h₂ e he v hv
    rw [List.filter_append, hnone, List.nil_append]

/-- The edges from one of several vertices are still there, in their order, after grouping. -/
theorem filter_grouped {vs : List Vertex} (hvs : (vs.map Vertex.id).Nodup) (es : List Edge)
    {v : Vertex} (hv : v ∈ vs) :
    (grouped vs es).filter (fun e => e.source == v.id) = es.filter fun e => e.source == v.id := by
  have hother : ∀ w : Vertex, w.id ≠ v.id →
      (es.filter fun e => e.source == w.id).filter (fun e => e.source == v.id) = [] := by
    intro w hw
    refine List.filter_eq_nil_iff.2 fun e he => ?_
    have hsource : e.source = w.id := by simpa using (List.mem_filter.1 he).2
    simpa [hsource] using hw
  induction vs with
  | nil => cases hv
  | cons w vs ih =>
    obtain ⟨hw, hvs⟩ := List.nodup_cons.1 hvs
    have hcons : grouped (w :: vs) es = (es.filter fun e => e.source == w.id) ++ grouped vs es := rfl
    rw [hcons, List.filter_append]
    rcases List.mem_cons.1 hv with rfl | hv
    · have hrest : (grouped vs es).filter (fun e => e.source == v.id) = [] := by
        unfold grouped
        rw [List.filter_flatMap, List.flatMap_eq_nil_iff]
        intro x hx
        refine hother x fun hid => hw ?_
        exact hid ▸ List.mem_map_of_mem hx
      rw [hrest, List.append_nil, List.filter_filter]
      simp
    · have hne : w.id ≠ v.id := fun hid => hw (hid ▸ List.mem_map_of_mem hv)
      rw [hother w hne, List.nil_append, ih hvs hv]

theorem grouped_grouped {vs : List Vertex} (hvs : (vs.map Vertex.id).Nodup) (es : List Edge) :
    grouped vs (grouped vs es) = grouped vs es :=
  List.flatMap_congr fun _ hv => filter_grouped hvs es hv

def scopedVertex (s : String) (v : Vertex) : Vertex := ⟨scopedId s v.id, v.node?.map (Node.scoped s)⟩

theorem grouped_scoped (s : String) (vs : List Vertex) (es : List Edge) :
    grouped (vs.map (scopedVertex s)) (es.map (scopedEdge s)) = (grouped vs es).map (scopedEdge s) := by
  unfold grouped
  rw [List.flatMap_map, List.map_flatMap]
  refine List.flatMap_congr fun v _ => ?_
  rw [List.filter_map]
  congr 1
  refine List.filter_congr fun e _ => ?_
  have hinj : scopedId s e.source = scopedId s v.id ↔ e.source = v.id := ⟨scopedId_inj, fun h => h ▸ rfl⟩
  simp [scopedEdge, scopedVertex, hinj]

theorem Unmerged.arranged_perm (hg : g.Unmerged) : g.arranged.Perm g.edges := by
  have hedges : g.edges.Nodup := hg.ends.of_map _
  have harranged : g.arranged.Nodup := by
    refine List.nodup_flatMap.2 ⟨fun v _ => hedges.filter _, ?_⟩
    refine (List.pairwise_map.1 hg.nodup).imp fun {v w} hne e hv hw => hne ?_
    have hv' : e.source = v.id := by simpa using (List.mem_filter.1 hv).2
    have hw' : e.source = w.id := by simpa using (List.mem_filter.1 hw).2
    exact hv'.symm.trans hw'
  exact (List.perm_ext_iff_of_nodup harranged hedges).2 fun _ => hg.mem_arranged

theorem Unmerged.nodup_ends_scoped (hg : g.Unmerged) (s : String) :
    ((g.arranged.map (scopedEdge s)).map Edge.ends).Nodup := by
  have hpairs : (g.arranged.map (scopedEdge s)).map Edge.ends =
      (g.arranged.map Edge.ends).map (Prod.map (scopedId s) (scopedId s)) := by
    rw [List.map_map, List.map_map]
    rfl
  have hinj : Function.Injective (scopedId s) := fun _ _ => scopedId_inj
  rw [hpairs]
  exact ((hg.arranged_perm.map Edge.ends).nodup_iff.2 hg.ends).map (hinj.prodMap hinj)

/-! ## Merging under a free scope -/

def beside (u h : Graph) (s : String) : Graph :=
  { u with
    vertices := u.vertices ++ h.vertices.map (scopedVertex s)
    edges := u.edges ++ h.arranged.map (scopedEdge s) }

theorem put_of_not_mem (h : n.id ∉ g.ids) :
    g.put n = { g with vertices := g.vertices ++ [⟨n.id, some n⟩] } :=
  if_neg (mt (any_id_iff g n.id).1 h)

theorem puts_of_not_mem (s : String) (l : List Node) (hl : (l.map Node.id).Nodup)
    (hnew : ∀ n ∈ l, scopedId s n.id ∉ g.ids) :
    l.foldl (fun g n => g.put (n.scoped s)) g =
      { g with vertices := g.vertices ++ l.map fun n => ⟨scopedId s n.id, some (n.scoped s)⟩ } := by
  induction l generalizing g with
  | nil => simp
  | cons n l ih =>
    obtain ⟨hn, hl⟩ := List.nodup_cons.1 hl
    have hput : g.put (n.scoped s) =
        { g with vertices := g.vertices ++ [⟨scopedId s n.id, some (n.scoped s)⟩] } :=
      put_of_not_mem (hnew n List.mem_cons_self)
    rw [List.foldl_cons, ih hl, hput]
    · simp
    · intro m hm hmem
      rcases mem_ids_put.1 hmem with hmem | hid
      · exact hnew m (List.mem_cons_of_mem n hm) hmem
      · exact hn (scopedId_inj (id hid) ▸ List.mem_map_of_mem hm)

theorem addEdges_of_not_linked (l : List Edge) (hl : (l.map Edge.ends).Nodup)
    (hends : ∀ e ∈ l, e.source ∈ g.ids ∧ e.target ∈ g.ids)
    (hnew : ∀ e ∈ l, e.ends ∉ g.edges.map Edge.ends) :
    l.foldl Graph.addEdge g = { g with edges := g.edges ++ l } := by
  induction l generalizing g with
  | nil => simp
  | cons e l ih =>
    obtain ⟨he, hl⟩ := List.nodup_cons.1 hl
    obtain ⟨hs, ht⟩ := hends e List.mem_cons_self
    have hadd := addEdge_eq_of_not_linked hs ht
      (linked_iff_mem_ends.not.2 (hnew e List.mem_cons_self))
    rw [List.foldl_cons, hadd, ih hl]
    · simp
    · exact fun x hx => hends x (List.mem_cons_of_mem e hx)
    · intro x hx hmem
      rw [List.map_append, List.mem_append] at hmem
      rcases hmem with hmem | hmem
      · exact hnew x (List.mem_cons_of_mem e hx) hmem
      · exact he (List.mem_singleton.1 hmem ▸ List.mem_map_of_mem hx)

/-- Under a scope whose names are free, merging puts a copy behind what there is. -/
theorem Unmerged.merge_eq_beside (hh : h.Unmerged) (hu : u.Filled)
    (hfree : ∀ id ∈ h.ids, scopedId s id ∉ u.ids) : u.merge h s = (.ok (), u.beside h s) := by
  refine Prod.ext (hh.merge_ok u s) ?_
  have hputs := puts_of_not_mem (g := u) s h.content (hh.ids_eq ▸ hh.nodup)
    fun n hn => hfree n.id (mem_ids_of_has (hh.has_iff.2 hn))
  have hvertices : h.vertices.map (scopedVertex s) =
      h.content.map fun n => ⟨scopedId s n.id, some (n.scoped s)⟩ := by
    rw [hh.vertices_eq, List.map_map]
    rfl
  have hcopied : ∀ id ∈ h.ids, scopedId s id ∈ (u.vertices ++ h.vertices.map (scopedVertex s)).map
      Vertex.id := by
    intro id hid
    obtain ⟨v, hv, rfl⟩ := List.mem_map.1 hid
    exact List.mem_map.2 ⟨scopedVertex s v, List.mem_append_right _ (List.mem_map_of_mem hv), rfl⟩
  rw [hh.merge_eq u s, hputs, ← hvertices, ← List.foldl_map (f := scopedEdge s) (g := Graph.addEdge),
    addEdges_of_not_linked]
  · rfl
  · exact hh.nodup_ends_scoped s
  · intro x hx
    obtain ⟨e, he, rfl⟩ := List.mem_map.1 hx
    have he := mem_arranged_of he
    exact ⟨hcopied e.source (hh.source e he), hcopied e.target (hh.target e he)⟩
  · intro x hx hmem
    obtain ⟨e, he, rfl⟩ := List.mem_map.1 hx
    obtain ⟨d, hd, hends⟩ := List.mem_map.1 hmem
    have hsource : d.source = scopedId s e.source := congrArg Prod.fst hends
    exact hfree e.source (hh.source e (mem_arranged_of he)) (hsource ▸ hu.source d hd)

/-- What a union is at any stage: edges stand in the order of their sources already. -/
structure InOrder (u : Graph) : Prop extends Filled u where
  ends : (u.edges.map Edge.ends).Nodup
  arranged : u.arranged = u.edges

theorem inOrder_empty (name : String) : (empty name).InOrder :=
  ⟨(tidy_empty name).toFilled, List.nodup_nil, rfl⟩

theorem ids_beside (u h : Graph) (s : String) :
    (u.beside h s).ids = u.ids ++ h.ids.map (scopedId s) := by
  simp [ids, beside, Function.comp_def, scopedVertex]

theorem InOrder.beside (hu : u.InOrder) (hh : h.Unmerged)
    (hfree : ∀ id ∈ h.ids, scopedId s id ∉ u.ids) : (u.beside h s).InOrder where
  vertex := by
    intro v hv
    rcases List.mem_append.1 hv with hv | hv
    · exact hu.vertex v hv
    · obtain ⟨w, hw, rfl⟩ := List.mem_map.1 hv
      obtain ⟨n, rfl⟩ := hh.vertex w hw
      exact ⟨n.scoped s, rfl⟩
  nodup := by
    rw [ids_beside, List.nodup_append]
    refine ⟨hu.nodup, hh.nodup.map fun _ _ => scopedId_inj, ?_⟩
    rintro a ha b hb rfl
    obtain ⟨id, hid, rfl⟩ := List.mem_map.1 hb
    exact hfree id hid ha
  source := by
    intro e he
    rw [ids_beside, List.mem_append]
    rcases List.mem_append.1 he with he | he
    · exact .inl (hu.source e he)
    · obtain ⟨d, hd, rfl⟩ := List.mem_map.1 he
      exact .inr (List.mem_map_of_mem (hh.source d (mem_arranged_of hd)))
  target := by
    intro e he
    rw [ids_beside, List.mem_append]
    rcases List.mem_append.1 he with he | he
    · exact .inl (hu.target e he)
    · obtain ⟨d, hd, rfl⟩ := List.mem_map.1 he
      exact .inr (List.mem_map_of_mem (hh.target d (mem_arranged_of hd)))
  ends := by
    unfold Graph.beside
    rw [List.map_append, List.nodup_append]
    refine ⟨hu.ends, hh.nodup_ends_scoped s, ?_⟩
    rintro a ha b hb rfl
    obtain ⟨d, hd, rfl⟩ := List.mem_map.1 ha
    obtain ⟨x, hx, hends⟩ := List.mem_map.1 hb
    obtain ⟨e, he, rfl⟩ := List.mem_map.1 hx
    have hsource : scopedId s e.source = d.source := congrArg Prod.fst hends
    exact hfree e.source (hh.source e (mem_arranged_of he)) (hsource ▸ hu.source d hd)
  arranged := by
    have hold : ∀ e ∈ h.arranged.map (scopedEdge s), ∀ v ∈ u.vertices, e.source ≠ v.id := by
      intro x hx v hv hid
      obtain ⟨e, he, rfl⟩ := List.mem_map.1 hx
      have hsource : scopedId s e.source = v.id := hid
      exact hfree e.source (hh.source e (mem_arranged_of he)) (hsource ▸ List.mem_map_of_mem hv)
    have hnew : ∀ e ∈ u.edges, ∀ v ∈ h.vertices.map (scopedVertex s), e.source ≠ v.id := by
      intro e he v hv hid
      obtain ⟨w, hw, rfl⟩ := List.mem_map.1 hv
      have hsource : e.source = scopedId s w.id := hid
      exact hfree w.id (List.mem_map_of_mem hw) (hsource ▸ hu.source e he)
    calc (u.beside h s).arranged
        = u.arranged ++ grouped (h.vertices.map (scopedVertex s)) (h.arranged.map (scopedEdge s)) :=
          grouped_append hold hnew
      _ = u.arranged ++ (grouped h.vertices (grouped h.vertices h.edges)).map (scopedEdge s) := by
          rw [grouped_scoped]
          rfl
      _ = u.edges ++ h.arranged.map (scopedEdge s) := by
          rw [grouped_grouped hh.nodup, hu.arranged]
          rfl

/-! ## Many graphs -/

def mergeAll (g : Graph) : List (String × Graph) → Except GraphFault Unit × Graph
  | [] => (.ok (), g)
  | (s, h) :: parts =>
    match g.merge h s with
    | (.error f, g) => (.error f, g)
    | (.ok (), g) => g.mergeAll parts

def besideAll (u : Graph) (parts : List (String × Graph)) : Graph :=
  parts.foldl (fun u p => u.beside p.2 p.1) u

theorem mergeAll_eq_besideAll {parts : List (String × Graph)} (hu : u.InOrder)
    (hparts : ∀ p ∈ parts, p.2.Unmerged) (hscopes : (parts.map Prod.fst).Nodup)
    (hfree : ∀ p ∈ parts, ∀ k i, scopedId p.1 (nodeId k i) ∉ u.ids) :
    u.mergeAll parts = (.ok (), u.besideAll parts) ∧ (u.besideAll parts).InOrder := by
  induction parts generalizing u with
  | nil => exact ⟨rfl, hu⟩
  | cons p parts ih =>
    obtain ⟨s, h⟩ := p
    obtain ⟨hs, hscopes⟩ := List.nodup_cons.1 hscopes
    have hh : h.Unmerged := hparts (s, h) List.mem_cons_self
    have hnew : ∀ id ∈ h.ids, scopedId s id ∉ u.ids := by
      intro id hid
      obtain ⟨k, i, rfl⟩ := hh.named id hid
      exact hfree (s, h) List.mem_cons_self k i
    rw [mergeAll, hh.merge_eq_beside hu.toFilled hnew]
    refine ih (hu.beside hh hnew) (fun q hq => hparts q (List.mem_cons_of_mem _ hq)) hscopes ?_
    intro q hq k i hmem
    rw [ids_beside, List.mem_append] at hmem
    rcases hmem with hmem | hmem
    · exact hfree q (List.mem_cons_of_mem _ hq) k i hmem
    · -- a name of this graph under another scope would give the scope away
      obtain ⟨id, hid, he⟩ := List.mem_map.1 hmem
      obtain ⟨k', i', rfl⟩ := hh.named id hid
      have hscope : s = q.1 := (scopedId_nodeId_inj he).1
      have hq' : q.1 ∈ parts.map Prod.fst := List.mem_map_of_mem hq
      exact hs (hscope ▸ hq')

theorem vertices_besideAll (u : Graph) (parts : List (String × Graph)) :
    (u.besideAll parts).vertices =
      u.vertices ++ parts.flatMap fun p => p.2.vertices.map (scopedVertex p.1) := by
  induction parts generalizing u with
  | nil => simp [besideAll]
  | cons p parts ih =>
    rw [List.flatMap_cons, ← List.append_assoc]
    exact ih (u.beside p.2 p.1)

theorem content_besideAll (u : Graph) (parts : List (String × Graph)) :
    (u.besideAll parts).content =
      u.content ++ parts.flatMap fun p => p.2.content.map (Node.scoped p.1) := by
  unfold content
  rw [vertices_besideAll, List.filterMap_append, List.filterMap_flatMap]
  congr 1
  refine List.flatMap_congr fun p _ => ?_
  rw [List.filterMap_map, List.map_filterMap]
  rfl

theorem edges_besideAll (u : Graph) (parts : List (String × Graph)) :
    (u.besideAll parts).edges =
      u.edges ++ parts.flatMap fun p => p.2.arranged.map (scopedEdge p.1) := by
  induction parts generalizing u with
  | nil => simp [besideAll]
  | cons p parts ih =>
    rw [List.flatMap_cons, ← List.append_assoc]
    exact ih (u.beside p.2 p.1)

end

/-- The graph consists of the given ones, one after the other, with scopes before their names. -/
structure SideBySide (parts : List (String × Graph)) (u : Graph) : Prop where
  nodes : u.nodes = .ok (parts.flatMap fun p => p.2.content.map fun n =>
    ⟨p.1 ++ "_" ++ n.id, n.kind, n.label, n.mark, n.description, some p.1⟩)
  edges : u.arranged = parts.flatMap fun p => p.2.arranged.map fun e =>
    ⟨p.1 ++ "_" ++ e.source, p.1 ++ "_" ++ e.target, e.kind, e.label⟩
  -- none of the edges that were drawn is hidden from reading
  whole : u.edges = u.arranged
  -- likewise for each of the graphs
  parts_whole : ∀ p ∈ parts, p.2.nodes = .ok p.2.content ∧ p.2.arranged.Perm p.2.edges
  nodup_ids : u.ids.Nodup
  nodup_ends : (u.edges.map Edge.ends).Nodup
  recovered : ∀ p ∈ parts, ∀ id ∈ p.2.ids, unscoped (p.1 ++ "_" ++ id) = (p.1, id)

/-- Merging graphs under different scopes into an empty one is a disjoint union. -/
theorem mergeAll_sideBySide (name : String) {parts : List (String × Graph)}
    (hmade : ∀ p ∈ parts, p.2.Made) (hscopes : (parts.map Prod.fst).Nodup) :
    ∃ u, (empty name).mergeAll parts = (.ok (), u) ∧ SideBySide parts u := by
  have hparts : ∀ p ∈ parts, p.2.Unmerged := fun p hp => (hmade p hp).unmerged
  obtain ⟨hall, hu⟩ := mergeAll_eq_besideAll (inOrder_empty name) hparts hscopes (by simp [empty, ids])
  refine ⟨_, hall, ?_, ?_, hu.arranged.symm, ?_, hu.nodup, hu.ends, ?_⟩
  · rw [hu.nodes_eq, content_besideAll]
    rfl
  · rw [hu.arranged, edges_besideAll]
    rfl
  · exact fun p hp => ⟨(hparts p hp).nodes_eq, (hparts p hp).arranged_perm⟩
  · intro p hp id hid
    obtain ⟨k, i, rfl⟩ := (hparts p hp).named id hid
    exact unscoped_scopedId p.1 k i

def dash : Graph :=
  (((empty "dash").addNode .block "x" (.str "")).2.addNode .exit "y" (.str "")).2.addEdge
    ⟨"block_1", "exit_2", .seq, ""⟩

theorem made_dash : dash.Made :=
  .addEdge _ (by decide +kernel) (by decide +kernel) (.addNode _ _ _ (.addNode _ _ _ (.empty "dash")))

/-- Copies of one graph under scopes that begin like each other and like its own names. -/
def nestedScopes : List (String × Graph) := [("f", dash), ("f_block", dash), ("f_block_1", dash)]

theorem nestedScopes_sideBySide : (∀ p ∈ nestedScopes, p.2.Made) ∧
    (nestedScopes.map Prod.fst).Nodup ∧
    ∃ u, (empty "u").mergeAll nestedScopes = (.ok (), u) ∧ SideBySide nestedScopes u := by
  have hmade : ∀ p ∈ nestedScopes, p.2.Made := by
    simp [nestedScopes, made_dash]
  have hscopes : (nestedScopes.map Prod.fst).Nodup := by decide
  exact ⟨hmade, hscopes, mergeAll_sideBySide "u" hmade hscopes⟩

end Graph

end Workbench.Flow
