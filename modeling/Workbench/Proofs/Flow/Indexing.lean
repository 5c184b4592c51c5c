import Workbench.Proofs.Flow.Keeping
import Workbench.Proofs.Flow.Order
import Workbench.Flow.Atlas

/-!
# What indexing a project comes to

Indexing a file draws its functions one after the other, up to the first that cannot be drawn. Each
that is drawn is noted as a definition; the graph of the file is kept only if there is no fault. So
the index of a project can be read off its files: all definitions in order, and the merged graphs of
the files without fault. Both the graph of a file and the atlas are tidy.
-/

namespace Workbench.Flow

/-! ## The graph of a function -/

section
variable {m : Manner} {x c e : Node} {d d' : Draft} {kind : NodeKind} {label : Label} {edgeLabel : String}
  {edge : EdgeKind}

theorem not_linked_grown (hd : d.graph.Numbered) (he : d.graph.Has e)
    (hf : ∀ u, ¬ d.graph.Linked u e.id) (u : String) :
    ¬ (d.grown c kind label edge edgeLabel).graph.Linked u e.id := by
  intro h
  rcases (Draft.linked_grown hd).1 h with h | ⟨-, hid⟩
  · exact hf u h
  · exact hd.fresh_id_ne he hid

theorem not_linked_withNode (hd : d.graph.Numbered) (hf : ∀ u, ¬ d.graph.Linked u e.id) (u : String) :
    ¬ (d.withNode kind label).graph.Linked u e.id :=
  fun h => hf u ((Draft.linked_withNode hd).1 h)

theorem not_linked_withEdge {t : Node} (hd : d.graph.Numbered) (he : d.graph.Has e)
    (ht : d.graph.Has t) (hk : t.kind ≠ e.kind) (hf : ∀ u, ¬ d.graph.Linked u e.id) (u : String) :
    ¬ (d.withEdge c t edge edgeLabel).graph.Linked u e.id := by
  intro h
  rcases Draft.linked_withEdge.1 h with h | ⟨-, hid⟩
  · exact hf u h
  · exact hk (congrArg Node.kind (hd.eq_of_id ht he hid.symm))

/-- New edges lead to new nodes, to joins and forks, or to the end; so none leads to a block that was
there before. -/
theorem Move.not_linked (hd : d.graph.Numbered) (hx : d.graph.Has x) (hxk : x.kind = .exit)
    (he : d.graph.Has e) (hek : e.kind = .block) (hf : ∀ u, ¬ d.graph.Linked u e.id)
    (hm : Move m x c d d') : ∀ u, ¬ d'.graph.Linked u e.id := by
  have hne : ∀ {t : Node}, t.kind = .join ∨ t.kind = .fork ∨ t.kind = .exit → t.kind ≠ e.kind := by
    intro t ht h
    rw [h, hek] at ht
    rcases ht with ht | ht | ht <;> cases ht
  have hgrown : ∀ kind label, Footing d c → (d.grown c kind label .seq "").graph.Numbered ∧
      (d.grown c kind label .seq "").graph.Has e ∧
      ∀ u, ¬ (d.grown c kind label .seq "").graph.Linked u e.id := fun kind label hc =>
    ⟨Draft.numbered_grown hd hc.has, (Draft.has_grown hd hc.has).2 (.inl he),
      not_linked_grown hd he hf⟩
  cases hm with
  | loops l => exact hf
  | join label => exact not_linked_withNode hd hf
  | grow hc => exact not_linked_grown hd he hf
  | forkBranch hc =>
    obtain ⟨h₁, h₂, h₃⟩ := hgrown _ _ hc
    exact not_linked_grown h₁ h₂ h₃
  | forkJoin hc =>
    obtain ⟨h₁, -, h₃⟩ := hgrown _ _ hc
    exact not_linked_withNode h₁ h₃
  | forkThen hc =>
    obtain ⟨h₁, -, h₃⟩ := hgrown _ _ hc
    exact not_linked_withNode h₁ h₃
  | leave hc =>
    obtain ⟨h₁, h₂, h₃⟩ := hgrown _ _ hc
    exact not_linked_withEdge h₁ h₂ ((Draft.has_grown hd hc.has).2 (.inl hx)) (hne (.inr (.inr hxk))) h₃
  | link hc ht _ hk =>
    refine not_linked_withEdge hd he ht (hne ?_) hf
    rcases hk with hk | rfl
    · exact .inl hk
    · exact .inr (.inr hxk)
  | back hc ht hk =>
    refine not_linked_withEdge hd he ht (hne ?_) hf
    rcases hk with hk | hk
    · exact .inr (.inl hk)
    · exact .inl hk

theorem Run.not_linked (hd : d.graph.Numbered) (hx : d.graph.Has x) (hxk : x.kind = .exit)
    (he : d.graph.Has e) (hek : e.kind = .block) (hf : ∀ u, ¬ d.graph.Linked u e.id)
    (hr : Run m x c d d') : ∀ u, ¬ d'.graph.Linked u e.id := by
  induction hr with
  | refl => exact hf
  | step hr hm _ ih =>
    obtain ⟨hd₁, hg⟩ := hr.grows hd hx
    exact hm.not_linked hd₁ (hg.has hx) hxk (hg.has he) hek ih

end

/-- The graph of a function: it is tidy, its nodes go by kind and number alone, and its entry is the
first of them. -/
structure Graph.OfFunction (g : Graph) : Prop where
  tidy : g.Tidy
  named : ∀ id ∈ g.ids, ∃ k i, id = nodeId k i
  entry : ∃ e : Node, g.entry = some e.id ∧ g.node? e.id = some e ∧ e.id = nodeId .block 1

theorem Graph.OfFunction.mem_ids {g : Graph} (h : g.OfFunction) : nodeId .block 1 ∈ g.ids := by
  obtain ⟨e, -, hn, hid⟩ := h.entry
  exact hid ▸ mem_ids_of_has (h.tidy.node?_eq_some_iff.1 hn).1

theorem graphOf_eq_ok {dialect : Dialect} {code : Bytes} {settings : Option Value} {t : Tree}
    {g : Graph} (h : graphOf dialect code settings t = .ok g) :
    ∃ d, draft dialect code settings t = (.ok (), d) ∧ d.graph = g := by
  unfold graphOf at h
  split at h
  next d hd => exact ⟨d, hd, Except.ok.inj h⟩
  next => cases h

theorem ofFunction_of_graphOf {dialect : Dialect} {code : Bytes} {settings : Option Value} {t : Tree}
    {g : Graph} (h : graphOf dialect code settings t = .ok g) : g.OfFunction := by
  obtain ⟨d, hd, rfl⟩ := graphOf_eq_ok h
  obtain ⟨f, name, s, v, hr⟩ := drafted_of_draft hd
  have hat := f.at_opened name s v
  have hopened := hat.sound.numbered
  obtain ⟨hnum, hg⟩ := hr.grows hopened hat.sound.has_exit
  have hfirst : d.graph.vertices[0]? = some ⟨(f.entry name s v).id, some (f.entry name s v)⟩ := by
    obtain ⟨l, hl⟩ := hg.vertices
    rw [← hl, f.vertices_opened]
    rfl
  have hfree : ∀ u, ¬ (f.opened name s v).graph.Linked u (f.entry name s v).id := by
    rintro u ⟨e, he, -⟩
    rw [f.edges_opened] at he
    cases he
  refine ⟨hnum.tidy (unlinked_of_draft hd).2 hfirst ?_, ?_, _,
    hg.entry.trans (f.entry_opened name s v), hnum.node?_of_has (hg.has hat.footing.has), rfl⟩
  · exact hr.not_linked hopened hat.sound.has_exit hat.sound.exit_kind hat.footing.has rfl hfree
  · intro id hid
    obtain ⟨n, hn, rfl⟩ := hnum.filled.exists_has hid
    obtain ⟨i, -, -, hi⟩ := hnum.id_of_has hn
    exact ⟨n.kind, i + 1, hi⟩

/-! ## Functions of a file -/

def leading {ε α : Type} : List (Except ε α) → List α
  | .ok a :: r => a :: leading r
  | _ => []

def firstFault? {ε α : Type} : List (Except ε α) → Option ε
  | [] => none
  | .ok _ :: r => firstFault? r
  | .error e :: _ => some e

def Graph.title (g : Graph) : String :=
  (g.entry.bind g.node?).elim "" fun n => functionName n.label

namespace Chapter

def drawings (settings : Option Value) (c : Chapter) : List (Except DrawFault Graph) :=
  (functions c.source.dialect c.source.tree).map (graphOf c.source.dialect c.source.code settings)

/-- The graphs of the functions, up to the first that cannot be drawn. -/
def drawn (settings : Option Value) (c : Chapter) : List Graph := leading (c.drawings settings)

def fault? (settings : Option Value) (c : Chapter) : Option DrawFault := firstFault? (c.drawings settings)

def definition (c : Chapter) (g : Graph) : Definition :=
  ⟨g.title, c.path, scopedId g.title (g.entry.getD ""), ""⟩

def definitions (settings : Option Value) (c : Chapter) : List Definition :=
  (c.drawn settings).map c.definition

def graph (settings : Option Value) (c : Chapter) : Graph :=
  ((c.drawn settings).map fun g => (g.title, g)).foldl (fun g p => (g.merge p.2 p.1).2)
    (.empty (PathName.base c.path))

end Chapter

theorem mem_leading {ε α : Type} {a : α} {l : List (Except ε α)} (h : a ∈ leading l) : .ok a ∈ l := by
  induction l with
  | nil => cases h
  | cons r l ih =>
    cases r with
    | error => cases h
    | ok b =>
      rcases List.mem_cons.1 h with rfl | h
      · exact List.mem_cons_self
      · exact List.mem_cons_of_mem _ (ih h)

theorem eq_map_leading {ε α : Type} {l : List (Except ε α)} (h : firstFault? l = none) :
    l = (leading l).map .ok := by
  induction l with
  | nil => rfl
  | cons r l ih =>
    cases r with
    | error => cases h
    | ok b =>
      rw [leading, List.map_cons, ← ih h]

theorem Chapter.ofFunction_of_drawn {settings : Option Value} {c : Chapter} {g : Graph}
    (h : g ∈ c.drawn settings) : g.OfFunction := by
  obtain ⟨t, -, ht⟩ := List.mem_map.1 (mem_leading h)
  exact ofFunction_of_graphOf ht

/-! ## Indexing -/

theorem indexFunctions_eq (settings : Option Value) (c : Chapter) (ts : List Tree) (g : Graph)
    (symbols : Symbols) :
    indexFunctions settings c g symbols ts =
      (match firstFault? (ts.map (graphOf c.source.dialect c.source.code settings)) with
        | none => .ok (((leading (ts.map (graphOf c.source.dialect c.source.code settings))).map
            fun h => (h.title, h)).foldl (fun g p => (g.merge p.2 p.1).2) g)
        | some f => .error f,
       ⟨symbols.definitions ++ (leading (ts.map (graphOf c.source.dialect c.source.code settings))).map
          c.definition⟩) := by
  induction ts generalizing g symbols with
  | nil => simp [indexFunctions, leading, firstFault?]
  | cons t ts ih =>
    rw [indexFunctions, List.map_cons]
    cases ht : graphOf c.source.dialect c.source.code settings t with
    | error f => simp [leading, firstFault?]
    | ok h =>
      -- every function that is drawn has an entry, and a name to be read off it
      obtain ⟨e, he, hn, -⟩ := (ofFunction_of_graphOf ht).entry
      have hbind : h.entry.bind h.node? = some e := by rw [he, Option.bind_some, hn]
      have htitle : h.title = functionName e.label := by rw [Graph.title, hbind]; rfl
      have hdef : c.definition h =
          ⟨functionName e.label, c.path, scopedId (functionName e.label) e.id, ""⟩ := by
        rw [Chapter.definition, htitle, he]
        rfl
      simp only [hbind, leading, firstFault?, List.map_cons, List.foldl_cons, htitle, hdef]
      rw [ih]
      simp [Symbols.register]

theorem indexFile_eq (settings : Option Value) (symbols : Symbols) (c : Chapter) :
    indexFile settings symbols c =
      (match c.fault? settings with
        | none => .ok (c.graph settings)
        | some f => .error f,
       ⟨symbols.definitions ++ c.definitions settings⟩) :=
  indexFunctions_eq settings c _ _ symbols

def Chapter.graphEntry (settings : Option Value) (c : Chapter) : Option (String × Graph) :=
  if (c.fault? settings).isNone then some (c.path, c.graph settings) else none

theorem Index.add_eq (settings : Option Value) (index : Index) (c : Chapter) :
    index.add settings c =
      (⟨⟨index.symbols.definitions ++ c.definitions settings⟩,
        index.graphs ++ (c.graphEntry settings).toList⟩, c.fault? settings) := by
  rw [Index.add, indexFile_eq, Chapter.graphEntry]
  cases c.fault? settings <;> simp

/-- Adds files one after the other; also tells which of them could not be drawn, and why. -/
def Index.addAll (settings : Option Value) : Index → List Chapter → Index × List (String × DrawFault)
  | index, [] => (index, [])
  | index, c :: cs =>
    let added := index.add settings c
    let rest := Index.addAll settings added.1 cs
    (rest.1, added.2.toList.map (fun f => (c.path, f)) ++ rest.2)

theorem Index.addAll_eq (settings : Option Value) (index : Index) (cs : List Chapter) :
    index.addAll settings cs =
      (⟨⟨index.symbols.definitions ++ cs.flatMap (Chapter.definitions settings)⟩,
        index.graphs ++ cs.filterMap (Chapter.graphEntry settings)⟩,
       cs.flatMap fun c => (c.fault? settings).toList.map fun f => (c.path, f)) := by
  induction cs generalizing index with
  | nil => simp [Index.addAll]
  | cons c cs ih =>
    rw [Index.addAll, ih, Index.add_eq]
    cases h : c.graphEntry settings <;> simp [h]

/-- The atlas of a project, given by its source files in the order in which they are read. -/
def atlasOf (settings : Option Value) (project : String) (cs : List Chapter) : Atlas :=
  (Index.empty.addAll settings cs).1.atlas project

/-- The graphs of all files without fault, merged, before any call is linked. -/
def mergedOf (settings : Option Value) (project : String) (cs : List Chapter) : Graph :=
  fuse project (cs.filterMap (Chapter.graphEntry settings))

theorem atlasOf_eq (settings : Option Value) (project : String) (cs : List Chapter) :
    atlasOf settings project cs =
      let (g, links) := crossLink project ⟨cs.flatMap (Chapter.definitions settings)⟩
        (mergedOf settings project cs)
      ⟨g, links⟩ := by
  rw [atlasOf, Index.addAll_eq, Index.atlas]
  simp [Index.empty, Symbols.empty, mergedOf]

/-! ## Tidy graphs -/

section
variable (settings : Option Value)

theorem Chapter.tidy_graph (c : Chapter) : (c.graph settings).Tidy ∧
    ∀ id, id ∈ (c.graph settings).ids ↔
      ∃ g ∈ c.drawn settings, ∃ i ∈ g.ids, id = scopedId g.title i := by
  obtain ⟨ht, hids⟩ := (Graph.tidy_empty (PathName.base c.path)).merges
    ((c.drawn settings).map fun g => (g.title, g)) (by
      intro p hp
      obtain ⟨g, hg, rfl⟩ := List.mem_map.1 hp
      exact (ofFunction_of_drawn hg).tidy)
  refine ⟨ht, fun id => (hids id).trans ?_⟩
  simp [Graph.empty, Graph.ids]

/-- The functions of a file that is drawn to the end, with the scopes under which the atlas has
them. -/
def Chapter.parts (project : String) (c : Chapter) : List (String × Graph) :=
  (c.drawn settings).map fun g => (scopedId (flatPath project c.path) g.title, g)

theorem tidy_mergedOf (project : String) (cs : List Chapter) : (mergedOf settings project cs).Tidy ∧
    ∀ id, id ∈ (mergedOf settings project cs).ids ↔ ∃ c ∈ cs, c.fault? settings = none ∧
      ∃ p ∈ c.parts settings project, ∃ i ∈ p.2.ids, id = scopedId p.1 i := by
  have hentry : ∀ p : String × Graph, p ∈ cs.filterMap (Chapter.graphEntry settings) ↔
      ∃ c ∈ cs, c.fault? settings = none ∧ p = (c.path, c.graph settings) := by
    intro p
    rw [List.mem_filterMap]
    simp only [Chapter.graphEntry, Option.isNone_iff_eq_none, Option.ite_none_right_eq_some,
      Option.some.injEq]
    exact exists_congr fun c => and_congr_right fun _ => and_congr_right fun _ => eq_comm
  have hfuse : mergedOf settings project cs =
      ((cs.filterMap (Chapter.graphEntry settings)).map fun p => (flatPath project p.1, p.2)).foldl
        (fun g p => (g.merge p.2 p.1).2) (.empty "ProjectAtlas") := by
    rw [List.foldl_map]
    rfl
  obtain ⟨ht, hids⟩ := (Graph.tidy_empty "ProjectAtlas").merges
    ((cs.filterMap (Chapter.graphEntry settings)).map fun p => (flatPath project p.1, p.2)) (by
      intro p hp
      obtain ⟨q, hq, rfl⟩ := List.mem_map.1 hp
      obtain ⟨c, -, -, rfl⟩ := (hentry q).1 hq
      exact (c.tidy_graph settings).1)
  rw [hfuse]
  refine ⟨ht, fun id => (hids id).trans ?_⟩
  constructor
  · rintro (h | ⟨p, hp, i, hi, rfl⟩)
    · cases h
    · obtain ⟨q, hq, rfl⟩ := List.mem_map.1 hp
      obtain ⟨c, hc, hf, rfl⟩ := (hentry q).1 hq
      obtain ⟨g, hg, j, hj, rfl⟩ := ((c.tidy_graph settings).2 i).1 hi
      exact ⟨c, hc, hf, _, List.mem_map_of_mem hg, j, hj, scopedId_scopedId _ _ _⟩
  · rintro ⟨c, hc, hf, p, hp, i, hi, rfl⟩
    obtain ⟨g, hg, rfl⟩ := List.mem_map.1 hp
    refine .inr ⟨_, List.mem_map_of_mem ((hentry _).2 ⟨c, hc, hf, rfl⟩), scopedId g.title i, ?_,
      (scopedId_scopedId _ _ _).symm⟩
    exact ((c.tidy_graph settings).2 _).2 ⟨g, hg, i, hi, rfl⟩

end

end Workbench.Flow
