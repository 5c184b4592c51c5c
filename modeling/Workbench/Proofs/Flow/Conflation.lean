import Workbench.Proofs.Flow.Links
import Mathlib.Algebra.GroupWithZero.Nat
import Mathlib.Data.List.Perm.Subperm

/-!
# Functions that fall together

The atlas has the nodes of a function under a scope made of the flattened path of the file and the
name of the function. Within one scope nodes keep their kinds and numbers; so functions share nodes
exactly if they share the scope, and then the atlas has fewer nodes than the functions have.
-/

namespace Workbench.Flow

/-! ## Names under several scopes -/

def namesUnder (parts : List (String × Graph)) : List String :=
  parts.flatMap fun p => p.2.ids.map (scopedId p.1)

theorem length_namesUnder (parts : List (String × Graph)) :
    (namesUnder parts).length = (parts.map fun p => p.2.vertices.length).sum := by
  simp [namesUnder, Graph.ids, List.length_flatMap]

theorem scopedId_inj {s i j : String} (h : scopedId s i = scopedId s j) : i = j := by
  have hl := congrArg String.toList h
  simp only [toList_scopedId] at hl
  exact String.toList_inj.1 (List.cons.inj (List.append_cancel_left hl)).2

/-- Graphs of functions share a name exactly if they go under one scope. -/
theorem disjoint_names_iff {p q : String × Graph} (hp : p.2.OfFunction) (hq : q.2.OfFunction) :
    List.Disjoint (p.2.ids.map (scopedId p.1)) (q.2.ids.map (scopedId q.1)) ↔ p.1 ≠ q.1 := by
  constructor
  · intro h hs
    exact h (List.mem_map_of_mem hp.mem_ids) (hs ▸ List.mem_map_of_mem hq.mem_ids)
  · -- names of nodes have no scope of their own, so the scope can be read off
    intro hs id hid hid'
    obtain ⟨i, hi, rfl⟩ := List.mem_map.1 hid
    obtain ⟨j, hj, hji⟩ := List.mem_map.1 hid'
    obtain ⟨k, m, rfl⟩ := hp.named i hi
    obtain ⟨k', m', rfl⟩ := hq.named j hj
    exact hs (scopedId_nodeId_inj hji).1.symm

theorem nodup_namesUnder_iff {parts : List (String × Graph)} (h : ∀ p ∈ parts, p.2.OfFunction) :
    (namesUnder parts).Nodup ↔ (parts.map Prod.fst).Nodup := by
  have hown : ∀ p ∈ parts, (p.2.ids.map (scopedId p.1)).Nodup := fun p hp =>
    (h p hp).tidy.nodup.map fun _ _ => scopedId_inj
  rw [namesUnder, List.nodup_flatMap, List.Nodup, List.pairwise_map]
  constructor
  · intro ⟨_, hpair⟩
    exact hpair.imp_of_mem fun hp hq hd => (disjoint_names_iff (h _ hp) (h _ hq)).1 hd
  · intro hpair
    exact ⟨hown, hpair.imp_of_mem fun hp hq hd => (disjoint_names_iff (h _ hp) (h _ hq)).2 hd⟩

/-- Names without repetition are as many as the names they are taken from exactly if nothing is
repeated there either. -/
theorem length_eq_iff_nodup {l l' : List String} (hl : l.Nodup) (h : ∀ a, a ∈ l ↔ a ∈ l') :
    l.length = l'.length ↔ l'.Nodup := by
  constructor
  · intro hlen
    have hsub : l.Subperm l' := List.subperm_of_subset hl fun a ha => (h a).1 ha
    exact (hsub.perm_of_length_le hlen.ge).nodup_iff.1 hl
  · intro hl'
    exact ((List.perm_ext_iff_of_nodup hl hl').2 h).length_eq

/-! ## Projects -/

section
variable (settings : Option Value) (project : String) (cs : List Chapter)

/-- All functions of a project, with the scopes under which the atlas has them. -/
def partsOf : List (String × Graph) := cs.flatMap (Chapter.parts settings project)

theorem ofFunction_of_parts {p : String × Graph} (hp : p ∈ partsOf settings project cs) :
    p.2.OfFunction := by
  obtain ⟨c, -, hp⟩ := List.mem_flatMap.1 hp
  obtain ⟨g, hg, rfl⟩ := List.mem_map.1 hp
  exact Chapter.ofFunction_of_drawn hg

theorem fault?_eq_none {settings : Option Value} {cs : List Chapter}
    (h : (Index.empty.addAll settings cs).2 = []) {c : Chapter} (hc : c ∈ cs) :
    c.fault? settings = none := by
  rw [Index.addAll_eq, List.flatMap_eq_nil_iff] at h
  simpa using h c hc

theorem mem_ids_atlas (h : (Index.empty.addAll settings cs).2 = []) (id : String) :
    id ∈ (atlasOf settings project cs).graph.ids ↔ id ∈ namesUnder (partsOf settings project cs) := by
  rw [ids_atlasOf]
  refine ((tidy_mergedOf settings project cs).2 id).trans ?_
  simp only [namesUnder, partsOf, List.mem_flatMap, List.mem_map]
  constructor
  · rintro ⟨c, hc, -, p, hp, i, hi, rfl⟩
    exact ⟨p, ⟨c, hc, hp⟩, i, hi, rfl⟩
  · rintro ⟨p, ⟨c, hc, hp⟩, i, hi, rfl⟩
    exact ⟨c, hc, fault?_eq_none h hc, p, hp, i, hi, rfl⟩

theorem drawings_eq_parts (h : (Index.empty.addAll settings cs).2 = []) :
    cs.flatMap (Chapter.drawings settings) =
      (partsOf settings project cs).map fun p => .ok p.2 := by
  rw [partsOf, List.map_flatMap]
  refine List.flatMap_congr fun c hc => ?_
  rw [Chapter.parts, List.map_map]
  exact eq_map_leading (fault?_eq_none h hc)

/-- A project without faults: the parts are all its functions. Each node of the atlas is a node of a
function; there are as many exactly if no two functions have one scope, and otherwise fewer. -/
theorem atlas_nodes_iff (h : (Index.empty.addAll settings cs).2 = []) :
    let atlas := (atlasOf settings project cs).graph
    let parts := partsOf settings project cs
    cs.flatMap (Chapter.drawings settings) = parts.map (fun p => .ok p.2) ∧
      (∀ id, id ∈ atlas.ids ↔ id ∈ namesUnder parts) ∧
      ((namesUnder parts).Nodup ↔ (parts.map Prod.fst).Nodup) ∧
      (atlas.vertices.length = (parts.map fun p => p.2.vertices.length).sum ↔
        (parts.map Prod.fst).Nodup) ∧
      atlas.vertices.length ≤ (parts.map fun p => p.2.vertices.length).sum := by
  intro atlas parts
  have hids : ∀ id, id ∈ atlas.ids ↔ id ∈ namesUnder parts := mem_ids_atlas settings project cs h
  have hnodup : atlas.ids.Nodup := (filled_atlasOf settings project cs).nodup
  have hnames : (namesUnder parts).Nodup ↔ (parts.map Prod.fst).Nodup :=
    nodup_namesUnder_iff fun p hp => ofFunction_of_parts settings project cs hp
  have hlength : atlas.vertices.length = atlas.ids.length := (List.length_map _).symm
  rw [← length_namesUnder, hlength]
  refine ⟨drawings_eq_parts settings project cs h, hids, hnames, ?_, ?_⟩
  · rw [length_eq_iff_nodup hnodup hids, hnames]
  · exact (List.subperm_of_subset hnodup fun id hid => (hids id).1 hid).length_le

end

def twinMethods : Chapter where
  path := "/w/m.py"
  source := {
    dialect := .suites
    code := "class A:\n def f(self):\n  a()\nclass B:\n def f(self):\n  b()\n".toUTF8.toList
    tree := .node "module" 0 58 none [method 10 28, method 39 57] }
where
  method (s e : Nat) : Tree :=
    .node "function_definition" s e none
      [.node "identifier" (s + 4) (s + 5) (some "name") [],
       .node "parameters" (s + 5) (s + 11) (some "parameters") [],
       .node "block" (e - 3) e (some "body")
        [.node "expression_statement" (e - 3) e none
          [.node "call" (e - 3) e none [.node "identifier" (e - 3) (e - 2) (some "function") []]]]]

theorem twinMethods_conflated : (Index.empty.addAll none [twinMethods]).2 = [] ∧
    (atlasOf none "/w" [twinMethods]).graph.vertices.length ≠
      ((partsOf none "/w" [twinMethods]).map fun p => p.2.vertices.length).sum := by
  have h : (Index.empty.addAll none [twinMethods]).2 = [] := by decide +kernel
  have hscopes : ¬ ((partsOf none "/w" [twinMethods]).map Prod.fst).Nodup := by decide +kernel
  exact ⟨h, fun hsize => hscopes ((atlas_nodes_iff none "/w" [twinMethods] h).2.2.2.1.1 hsize)⟩

end Workbench.Flow
