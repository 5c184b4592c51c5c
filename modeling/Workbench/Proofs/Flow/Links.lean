import Workbench.Proofs.Flow.Indexing

/-!
# Links of an atlas

A call is linked to the one function of its name. The entry of a function is never the end of another
edge, so a link takes the place of no edge: linking appends one edge for each call that has a target,
in the order of the calls.
-/

namespace Workbench.Flow

/-! ## Names with one definition -/

namespace Symbols

theorem resolve_eq_some_iff_candidates {s : Symbols} {name : String} {d : Definition} :
    s.resolve name = some d ↔ s.candidates name = [d] := by
  unfold resolve
  split
  next a h => rw [h]; simp
  next h =>
    constructor
    · intro h'; cases h'
    · exact fun h' => absurd h' (h d)

theorem resolve_eq_some_iff {s : Symbols} {name : String} {d : Definition} :
    s.resolve name = some d ↔ d ∈ s.definitions ∧ d.name = name ∧
      (s.definitions.map Definition.name).count name = 1 := by
  have hcount : (s.definitions.map Definition.name).count name = (s.candidates name).length := by
    rw [List.count, List.countP_map, List.countP_eq_length_filter]
    rfl
  have hmem : d ∈ s.candidates name ↔ d ∈ s.definitions ∧ d.name = name := by
    simp [candidates]
  rw [resolve_eq_some_iff_candidates, hcount, ← and_assoc, ← hmem, List.length_eq_one_iff]
  constructor
  · intro h
    exact ⟨by rw [h]; exact List.mem_singleton_self d, d, h⟩
  · rintro ⟨hd, a, ha⟩
    rw [ha] at hd
    rw [ha, List.mem_singleton.1 hd]

end Symbols

/-! ## Linking calls -/

namespace Graph

def link? (project : String) (symbols : Symbols) (g : Graph) (n : Node) : Option Edge :=
  (linkTarget? project symbols g n).map fun t => ⟨n.id, t.id, .link, "calls"⟩

def linksOf (project : String) (symbols : Symbols) (g : Graph) : List Edge :=
  g.content.filterMap (link? project symbols g)

variable {project : String} {symbols : Symbols} {g : Graph} {n t : Node} {e : Edge}

theorem link?_eq_some_iff : link? project symbols g n = some e ↔
    ∃ t, linkTarget? project symbols g n = some t ∧ e = ⟨n.id, t.id, .link, "calls"⟩ := by
  rw [link?, Option.map_eq_some_iff]
  exact exists_congr fun t => and_congr_right fun _ => eq_comm

theorem linkTarget?_eq_some_iff (hg : g.Filled) : linkTarget? project symbols g n = some t ↔
    n.kind = .call ∧ ∃ d ∈ symbols.definitions, d.name = calledName n.label ∧
      (symbols.definitions.map Definition.name).count d.name = 1 ∧
      g.Has t ∧ t.id = scopedId (flatPath project d.file) d.node := by
  unfold linkTarget?
  rw [Option.ite_none_right_eq_some, Option.bind_eq_some_iff]
  refine and_congr_right fun _ => exists_congr fun d => ?_
  rw [Symbols.resolve_eq_some_iff, hg.node?_eq_some_iff]
  constructor
  · rintro ⟨⟨hd, hname, hone⟩, ht⟩
    exact ⟨hd, hname, hname ▸ hone, ht⟩
  · rintro ⟨hd, hname, hone, ht⟩
    exact ⟨⟨hd, hname, hname ▸ hone⟩, ht⟩

theorem addEdge_eq_of_not_linked (hs : e.source ∈ g.ids) (ht : e.target ∈ g.ids)
    (h : ¬ g.Linked e.source e.target) : g.addEdge e = { g with edges := g.edges ++ [e] } := by
  simp only [addEdge, touch_of_mem hs, touch_of_mem ht]
  refine if_neg fun hany => h ?_
  simpa [Linked] using hany

/-- Linking the calls of `l`, after some links from other nodes were drawn. -/
theorem foldl_link (hg : g.Filled)
    (hfree : ∀ n t, linkTarget? project symbols g n = some t → ∀ e ∈ g.edges, e.target ≠ t.id)
    (l : List Node) (hl : ∀ n ∈ l, n.id ∈ g.ids) (hdup : (l.map Node.id).Nodup)
    (done : List Edge) (hdone : ∀ e ∈ done, ∀ n ∈ l, e.source ≠ n.id) (count : Nat) :
    (l.map fun n => (⟨n.id, some n⟩ : Vertex)).foldl (fun (h, count) v =>
      match v.node?.bind (linkTarget? project symbols g) with
      | none => (h, count)
      | some target => (h.addEdge ⟨v.id, target.id, .link, "calls"⟩, count + 1))
      ({ g with edges := g.edges ++ done }, count) =
    ({ g with edges := g.edges ++ (done ++ l.filterMap (link? project symbols g)) },
      count + (l.filterMap (link? project symbols g)).length) := by
  induction l generalizing done count with
  | nil => simp
  | cons n l ih =>
    obtain ⟨hn, hdup⟩ := List.nodup_cons.1 hdup
    have hl' : ∀ m ∈ l, m.id ∈ g.ids := fun m hm => hl m (List.mem_cons_of_mem n hm)
    have hdone' : ∀ e ∈ done, ∀ m ∈ l, e.source ≠ m.id :=
      fun e he m hm => hdone e he m (List.mem_cons_of_mem n hm)
    rw [List.map_cons, List.foldl_cons]
    cases ht : linkTarget? project symbols g n with
    | none =>
      have hnone : link? project symbols g n = none := by rw [link?, ht]; rfl
      simp only [Option.bind_some, ht]
      rw [ih hl' hdup done hdone' count, List.filterMap_cons_none hnone]
    | some t =>
      have hsome : link? project symbols g n = some ⟨n.id, t.id, .link, "calls"⟩ := by
        rw [link?, ht]; rfl
      have hmem : t.id ∈ g.ids := by
        obtain ⟨-, -, -, -, -, ht, -⟩ := (linkTarget?_eq_some_iff hg).1 ht
        exact mem_ids_of_has ht
      -- neither an edge of the graph nor an earlier link has these two ends
      have hnew : ¬ Linked { g with edges := g.edges ++ done } n.id t.id := by
        rintro ⟨e, he, hs, htgt⟩
        rcases List.mem_append.1 he with he | he
        · exact hfree n t ht e he htgt
        · exact hdone e he n List.mem_cons_self hs
      have hadd : addEdge { g with edges := g.edges ++ done } ⟨n.id, t.id, .link, "calls"⟩ =
          { g with edges := g.edges ++ (done ++ [⟨n.id, t.id, .link, "calls"⟩]) } := by
        rw [addEdge_eq_of_not_linked (hl n List.mem_cons_self) hmem hnew, ← List.append_assoc]
      simp only [Option.bind_some, ht]
      rw [hadd, ih hl' hdup _ ?_ (count + 1), List.filterMap_cons_some hsome, List.length_cons]
      · simp only [List.append_assoc, List.singleton_append, Nat.add_assoc, Nat.add_comm 1]
      · intro e he m hm
        rcases List.mem_append.1 he with he | he
        · exact hdone' e he m hm
        · rw [List.mem_singleton.1 he]
          intro h
          exact hn (List.mem_map.2 ⟨m, hm, h.symm⟩)

theorem crossLink_eq (hg : g.Filled)
    (hfree : ∀ n t, linkTarget? project symbols g n = some t → ∀ e ∈ g.edges, e.target ≠ t.id) :
    crossLink project symbols g = ({ g with edges := g.edges ++ linksOf project symbols g },
      (linksOf project symbols g).length) := by
  have h := foldl_link hg hfree g.content (fun n hn => mem_ids_of_has (hg.has_iff.2 hn))
    (hg.ids_eq ▸ hg.nodup) [] (by simp) 0
  rw [← hg.vertices_eq, List.append_nil, List.nil_append, Nat.zero_add] at h
  exact h

end Graph

/-! ## The links of a project -/

section
variable (settings : Option Value) (project : String) (cs : List Chapter)

theorem fuse_addAll :
    fuse project (Index.empty.addAll settings cs).1.graphs = mergedOf settings project cs := by
  rw [Index.addAll_eq]
  rfl

theorem Chapter.tagged_of_definitions {settings : Option Value} {c : Chapter} {d : Definition}
    (h : d ∈ c.definitions settings) : Tagged .block 1 d.node := by
  obtain ⟨g, hg, rfl⟩ := List.mem_map.1 h
  obtain ⟨e, he, -, hid⟩ := (ofFunction_of_drawn hg).entry
  refine Tagged.scoped (.inl ?_) g.title
  rw [he, Option.getD_some, hid]

/-- The links of a project, given by all definitions that were noted. -/
theorem crossLink_mergedOf (symbols : Symbols)
    (hs : ∀ d ∈ symbols.definitions, Tagged .block 1 d.node) :
    crossLink project symbols (mergedOf settings project cs) =
      ({ mergedOf settings project cs with
          edges := (mergedOf settings project cs).edges ++
            (mergedOf settings project cs).linksOf project symbols },
       ((mergedOf settings project cs).linksOf project symbols).length) := by
  have hm := (tidy_mergedOf settings project cs).1
  refine Graph.crossLink_eq hm.toFilled fun n t ht e he htgt => ?_
  -- a link leads to a node of number one, and no other edge does
  obtain ⟨-, d, hd, -, -, -, hid⟩ := (Graph.linkTarget?_eq_some_iff hm.toFilled).1 ht
  exact hm.entries e he .block (htgt ▸ hid ▸ (hs d hd).scoped _)

/-- All definitions that indexing the files notes. -/
def definitionsOf : Symbols := ⟨cs.flatMap (Chapter.definitions settings)⟩

theorem symbols_addAll : (Index.empty.addAll settings cs).1.symbols = definitionsOf settings cs := by
  rw [Index.addAll_eq]
  rfl

theorem tagged_definitionsOf (d : Definition) (hd : d ∈ (definitionsOf settings cs).definitions) :
    Tagged .block 1 d.node := by
  obtain ⟨c, -, hd⟩ := List.mem_flatMap.1 hd
  exact Chapter.tagged_of_definitions hd

theorem atlasOf_eq_links : atlasOf settings project cs =
    ⟨{ mergedOf settings project cs with
        edges := (mergedOf settings project cs).edges ++
          (mergedOf settings project cs).linksOf project (definitionsOf settings cs) },
      ((mergedOf settings project cs).linksOf project (definitionsOf settings cs)).length⟩ := by
  rw [atlasOf_eq, ← definitionsOf,
    crossLink_mergedOf settings project cs _ (tagged_definitionsOf settings cs)]

theorem ids_atlasOf : (atlasOf settings project cs).graph.ids = (mergedOf settings project cs).ids := by
  rw [atlasOf_eq_links]
  rfl

end

/-- How an atlas comes from a merged graph and the definitions of a project. -/
structure CrossLinked (project : String) (definitions : List Definition) (merged : Graph)
    (atlas : Atlas) : Prop where
  -- A call is linked to a node exactly if it names one definition and the node is where that
  -- definition begins.
  linked : ∀ c t, atlas.graph.Has c → c.kind = .call → atlas.graph.Has t →
    ((∃ e ∈ atlas.graph.edges, e.kind = .link ∧ e.source = c.id ∧ e.target = t.id) ↔
      ∃ d ∈ definitions, d.name = calledName c.label ∧
        (definitions.map Definition.name).count d.name = 1 ∧
        t.id = scopedId (flatPath project d.file) d.node)
  calls : ∀ e ∈ atlas.graph.edges, e.kind = .link → ∃ c t, atlas.graph.Has c ∧ c.kind = .call ∧
    atlas.graph.Has t ∧ e.source = c.id ∧ e.target = t.id
  single : ∀ c : Node,
    (atlas.graph.edges.filter fun e => e.kind = .link ∧ e.source = c.id).length ≤ 1
  counted : atlas.links = (atlas.graph.edges.filter fun e => e.kind = .link).length
  vertices : atlas.graph.vertices = merged.vertices
  -- The edges of the merged graph stay as they are, and all that is new is a link.
  edges : ∃ new, atlas.graph.edges = merged.edges ++ new ∧ (∀ e ∈ merged.edges, e.kind ≠ .link) ∧
    ∀ e ∈ new, e.kind = .link ∧ e.label = "calls"

namespace Graph

variable {project : String} {symbols : Symbols} {g : Graph}

theorem mem_linksOf (hg : g.Filled) {e : Edge} : e ∈ g.linksOf project symbols ↔
    ∃ n t, g.Has n ∧ linkTarget? project symbols g n = some t ∧
      e = ⟨n.id, t.id, .link, "calls"⟩ := by
  simp only [linksOf, List.mem_filterMap, link?_eq_some_iff, hg.has_iff, exists_and_left]

theorem source_of_link? {n : Node} {e : Edge} (h : link? project symbols g n = some e) :
    e.source = n.id := by
  obtain ⟨t, -, rfl⟩ := link?_eq_some_iff.1 h
  rfl

theorem nodup_sources_linksOf (hg : g.Filled) :
    ((g.linksOf project symbols).map Edge.source).Nodup := by
  have key : ∀ l : List Node, (l.map Node.id).Nodup →
      ((l.filterMap (link? project symbols g)).map Edge.source).Nodup := by
    intro l hl
    induction l with
    | nil => exact List.nodup_nil
    | cons n l ih =>
      obtain ⟨hn, hl⟩ := List.nodup_cons.1 hl
      cases he : link? project symbols g n with
      | none => rw [List.filterMap_cons_none he]; exact ih hl
      | some e =>
        rw [List.filterMap_cons_some he, List.map_cons]
        refine List.nodup_cons.2 ⟨fun h => hn ?_, ih hl⟩
        obtain ⟨x, hx, hxe⟩ := List.mem_map.1 h
        obtain ⟨m, hm, hmx⟩ := List.mem_filterMap.1 hx
        rw [← source_of_link? he, ← hxe, source_of_link? hmx]
        exact List.mem_map_of_mem hm
  exact key g.content (hg.ids_eq ▸ hg.nodup)

end Graph

theorem filled_atlasOf (settings : Option Value) (project : String) (cs : List Chapter) :
    (atlasOf settings project cs).graph.Filled := by
  have hm := (tidy_mergedOf settings project cs).1
  rw [atlasOf_eq_links]
  refine ⟨hm.vertex, hm.nodup, fun e he => ?_, fun e he => ?_⟩
  · rcases List.mem_append.1 he with he | he
    · exact hm.source e he
    · obtain ⟨n, t, hn, -, rfl⟩ := (Graph.mem_linksOf hm.toFilled).1 he
      exact Graph.mem_ids_of_has hn
  · rcases List.mem_append.1 he with he | he
    · exact hm.target e he
    · obtain ⟨n, t, -, ht, rfl⟩ := (Graph.mem_linksOf hm.toFilled).1 he
      obtain ⟨-, -, -, -, -, ht, -⟩ := (Graph.linkTarget?_eq_some_iff hm.toFilled).1 ht
      exact Graph.mem_ids_of_has ht

theorem crossLinked_atlas (settings : Option Value) (project : String) (cs : List Chapter) :
    let index := (Index.empty.addAll settings cs).1
    CrossLinked project index.symbols.definitions (fuse project index.graphs)
      (index.atlas project) := by
  intro index
  have hm := (tidy_mergedOf settings project cs).1
  rw [show index.atlas project = _ from atlasOf_eq_links settings project cs,
    show index.symbols = definitionsOf settings cs from symbols_addAll settings cs,
    show fuse project index.graphs = mergedOf settings project cs from fuse_addAll settings project cs]
  generalize mergedOf settings project cs = M at hm ⊢
  generalize definitionsOf settings cs = S
  have hkind : ∀ e ∈ M.linksOf project S, e.kind = .link ∧ e.label = "calls" := by
    intro e he
    obtain ⟨n, t, -, -, rfl⟩ := (Graph.mem_linksOf hm.toFilled).1 he
    exact ⟨rfl, rfl⟩
  -- so the links among the edges are the new ones
  have hfilter : (M.edges ++ M.linksOf project S).filter (fun e => e.kind = .link) =
      M.linksOf project S := by
    rw [List.filter_append, List.filter_eq_nil_iff.2 fun e he => by simpa using hm.no_links e he,
      List.nil_append]
    exact List.filter_eq_self.2 fun e he => by simpa using (hkind e he).1
  have hlink : ∀ e, (e ∈ M.edges ++ M.linksOf project S ∧ e.kind = .link) ↔
      e ∈ M.linksOf project S := by
    intro e
    rw [← hfilter, List.mem_filter, hfilter]
    simp
  constructor
  case linked =>
    intro c t hc hck ht
    constructor
    · rintro ⟨e, he, hek, hes, het⟩
      obtain ⟨n, t', hn, htar, rfl⟩ := (Graph.mem_linksOf hm.toFilled).1 ((hlink e).1 ⟨he, hek⟩)
      obtain rfl := hm.eq_of_id hn hc hes
      obtain ⟨-, d, hd, hname, hone, -, hid⟩ := (Graph.linkTarget?_eq_some_iff hm.toFilled).1 htar
      exact ⟨d, hd, hname, hone, het ▸ hid⟩
    · rintro ⟨d, hd, hname, hone, hid⟩
      have htar : linkTarget? project S M c = some t :=
        (Graph.linkTarget?_eq_some_iff hm.toFilled).2 ⟨hck, d, hd, hname, hone, ht, hid⟩
      have he := (Graph.mem_linksOf hm.toFilled).2 ⟨c, t, hc, htar, rfl⟩
      exact ⟨_, ((hlink _).2 he).1, rfl, rfl, rfl⟩
  case calls =>
    intro e he hek
    obtain ⟨n, t, hn, htar, rfl⟩ := (Graph.mem_linksOf hm.toFilled).1 ((hlink e).1 ⟨he, hek⟩)
    obtain ⟨hk, -, -, -, -, ht, -⟩ := (Graph.linkTarget?_eq_some_iff hm.toFilled).1 htar
    exact ⟨n, t, hn, hk, ht, rfl, rfl⟩
  case single =>
    intro c
    have hcount : ((M.linksOf project S).map Edge.source).count c.id ≤ 1 :=
      List.nodup_iff_count_le_one.1 (Graph.nodup_sources_linksOf hm.toFilled) c.id
    rw [List.count, List.countP_map, List.countP_eq_length_filter, ← hfilter, List.filter_filter]
      at hcount
    refine le_of_eq_of_le (congrArg List.length (List.filter_congr fun e _ => ?_)) hcount
    by_cases hs : e.source = c.id <;> simp [hs]
  case counted => rw [hfilter]
  case vertices => rfl
  case edges => exact ⟨_, rfl, hm.no_links, hkind⟩

end Workbench.Flow
