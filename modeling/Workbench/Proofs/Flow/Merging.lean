import Workbench.Proofs.Flow.Numbering
import Mathlib.Data.List.Nodup

/-!
# Merged graphs

A merged node goes under a scope, then a low line, then the name it had. However many scopes pile up,
the kind and the number of the node can be read off the end of its name. A graph that is made by
merging the graphs of functions keeps a simple form: all vertices hold nodes of different names, edges
run between them, no edge is a link, and none leads to a node of number one.
-/

namespace Workbench.Flow

/-! ## Names under scopes -/

theorem scopedId_scopedId (s t id : String) :
    scopedId s (scopedId t id) = scopedId (scopedId s t) id := by
  simp only [scopedId, String.append_assoc]

theorem toList_scopedId (s id : String) : (scopedId s id).toList = s.toList ++ '_' :: id.toList := by
  simp [scopedId]

theorem append_lowLine_inj {a b x y : List Char} (hx : '_' ∉ x) (hy : '_' ∉ y)
    (h : a ++ '_' :: x = b ++ '_' :: y) : a = b ∧ x = y := by
  rcases List.append_eq_append_iff.1 h with ⟨c, rfl, hc⟩ | ⟨c, rfl, hc⟩
  · cases c with
    | nil => simpa using hc
    | cons d c =>
      obtain ⟨-, rfl⟩ := List.cons.inj hc
      exact absurd (by simp) hx
  · cases c with
    | nil => simpa [eq_comm] using hc
    | cons d c =>
      obtain ⟨-, rfl⟩ := List.cons.inj hc
      exact absurd (by simp) hy

theorem lowLine_not_mem_word (k : NodeKind) : '_' ∉ k.word.toList := by
  cases k <;> decide

theorem lowLine_not_mem_digits (i : Nat) : '_' ∉ (Decimal.digitText i).toList := by
  rw [Decimal.digitText, String.toList_ofList]
  intro h
  have hd : ('_').isDigit = true := Nat.isDigit_of_mem_toDigits (by decide) (by decide) h
  exact absurd hd (by decide)

theorem toList_nodeId (k : NodeKind) (i : Nat) :
    (nodeId k i).toList = k.word.toList ++ '_' :: (Decimal.digitText i).toList := by
  simp [nodeId]

theorem word_inj {k k' : NodeKind} (h : k.word = k'.word) : k = k' :=
  (word_append_inj (s := "") (t := "") (by rw [h])).1

/-- The name of a numbered node, alone or under a scope. -/
def Tagged (kind : NodeKind) (i : Nat) (id : String) : Prop :=
  id = nodeId kind i ∨ ∃ s, id = scopedId s (nodeId kind i)

theorem Tagged.scoped {k : NodeKind} {i : Nat} {id : String} (h : Tagged k i id) (s : String) :
    Tagged k i (scopedId s id) := by
  rcases h with rfl | ⟨t, rfl⟩
  · exact .inr ⟨s, rfl⟩
  · exact .inr ⟨scopedId s t, scopedId_scopedId s t _⟩

theorem scopedId_nodeId_inj {s t : String} {k k' : NodeKind} {i j : Nat}
    (h : scopedId s (nodeId k i) = scopedId t (nodeId k' j)) : s = t ∧ k = k' ∧ i = j := by
  have hl := congrArg String.toList h
  simp only [toList_scopedId, toList_nodeId, ← List.cons_append, ← List.append_assoc] at hl
  obtain ⟨hl, hd⟩ := append_lowLine_inj (lowLine_not_mem_digits i) (lowLine_not_mem_digits j) hl
  obtain ⟨hs, hw⟩ := append_lowLine_inj (lowLine_not_mem_word k) (lowLine_not_mem_word k') hl
  exact ⟨String.toList_inj.1 hs, word_inj (String.toList_inj.1 hw),
    digitText_inj (String.toList_inj.1 hd)⟩

/-- A name without scope is no name under a scope: it has only one low line. -/
theorem nodeId_ne_scopedId {t : String} {k k' : NodeKind} {i j : Nat} :
    nodeId k i ≠ scopedId t (nodeId k' j) := by
  intro h
  have hl := congrArg String.toList h
  simp only [toList_scopedId, toList_nodeId, ← List.cons_append, ← List.append_assoc] at hl
  obtain ⟨hl, -⟩ := append_lowLine_inj (lowLine_not_mem_digits i) (lowLine_not_mem_digits j) hl
  exact lowLine_not_mem_word k (hl ▸ by simp)

theorem Tagged.unique {k k' : NodeKind} {i j : Nat} {id : String} (h : Tagged k i id)
    (h' : Tagged k' j id) : k = k' ∧ i = j := by
  rcases h with rfl | ⟨s, rfl⟩
  · rcases h' with h' | ⟨t, h'⟩
    · exact nodeId_inj h'
    · exact absurd h' nodeId_ne_scopedId
  · rcases h' with h' | ⟨t, h'⟩
    · exact absurd h'.symm nodeId_ne_scopedId
    · exact (scopedId_nodeId_inj h').2

namespace Graph

/-! ## Filled graphs -/

def ids (g : Graph) : List String := g.vertices.map Vertex.id

def content (g : Graph) : List Node := g.vertices.filterMap Vertex.node?

/-- All vertices hold nodes, of different names, and edges run between them. -/
structure Filled (g : Graph) : Prop where
  vertex : ∀ v ∈ g.vertices, ∃ n : Node, v = ⟨n.id, some n⟩
  nodup : g.ids.Nodup
  source : ∀ e ∈ g.edges, e.source ∈ g.ids
  target : ∀ e ∈ g.edges, e.target ∈ g.ids

section
variable {g h : Graph} {n m : Node} {id s : String}

theorem Filled.vertices_eq (hg : g.Filled) :
    g.vertices = g.content.map fun n => ⟨n.id, some n⟩ := by
  have key : ∀ l : List Vertex, (∀ v ∈ l, ∃ n : Node, v = ⟨n.id, some n⟩) →
      l = (l.filterMap Vertex.node?).map fun n => ⟨n.id, some n⟩ := by
    intro l hl
    induction l with
    | nil => rfl
    | cons v l ih =>
      obtain ⟨n, rfl⟩ := hl v List.mem_cons_self
      rw [List.filterMap_cons_some (rfl : Vertex.node? ⟨n.id, some n⟩ = some n), List.map_cons,
        ← ih fun w hw => hl w (List.mem_cons_of_mem _ hw)]
  exact key g.vertices hg.vertex

theorem Filled.has_iff (hg : g.Filled) : g.Has n ↔ n ∈ g.content := by
  unfold Has
  rw [hg.vertices_eq, List.mem_map]
  constructor
  · rintro ⟨m, hm, e⟩
    obtain rfl : m = n := by simpa using congrArg Vertex.node? e
    exact hm
  · exact fun hn => ⟨n, hn, rfl⟩

theorem Filled.ids_eq (hg : g.Filled) : g.ids = g.content.map Node.id := by
  unfold ids
  rw [hg.vertices_eq, List.map_map]
  rfl

theorem mem_ids_of_has (hn : g.Has n) : n.id ∈ g.ids := List.mem_map_of_mem hn

theorem Filled.exists_has (hg : g.Filled) (hid : id ∈ g.ids) : ∃ n, g.Has n ∧ n.id = id := by
  rw [hg.ids_eq, List.mem_map] at hid
  obtain ⟨n, hn, rfl⟩ := hid
  exact ⟨n, hg.has_iff.2 hn, rfl⟩

theorem Filled.eq_of_id (hg : g.Filled) (hn : g.Has n) (hm : g.Has m) (h : n.id = m.id) : n = m := by
  have hv : (⟨n.id, some n⟩ : Vertex) = ⟨m.id, some m⟩ := List.inj_on_of_nodup_map hg.nodup hn hm h
  simpa using congrArg Vertex.node? hv

theorem Filled.node?_eq_some_iff (hg : g.Filled) : g.node? id = some n ↔ g.Has n ∧ n.id = id := by
  unfold node? vertex?
  constructor
  · intro h
    obtain ⟨v, hv, hn⟩ := Option.bind_eq_some_iff.1 h
    obtain ⟨m, rfl⟩ := hg.vertex v (List.mem_of_find?_eq_some hv)
    obtain rfl : m = n := by simpa using hn
    exact ⟨List.mem_of_find?_eq_some hv, by simpa using List.find?_some hv⟩
  · rintro ⟨hn, rfl⟩
    cases hf : g.vertices.find? fun v => v.id == n.id with
    | none => exact absurd (List.find?_eq_none.1 hf _ hn) (by simp)
    | some v =>
      obtain ⟨m, rfl⟩ := hg.vertex v (List.mem_of_find?_eq_some hf)
      obtain rfl : m = n :=
        hg.eq_of_id (List.mem_of_find?_eq_some hf) hn (by simpa using List.find?_some hf)
      rfl

theorem Filled.node?_eq_none_iff (hg : g.Filled) : g.node? id = none ↔ id ∉ g.ids := by
  rw [← not_iff_not, not_not, ← Ne, Option.ne_none_iff_exists']
  constructor
  · rintro ⟨n, hn⟩
    obtain ⟨hhas, rfl⟩ := hg.node?_eq_some_iff.1 hn
    exact mem_ids_of_has hhas
  · intro hid
    obtain ⟨n, hn⟩ := hg.exists_has hid
    exact ⟨n, hg.node?_eq_some_iff.2 hn⟩

end

/-! ## Putting nodes -/

section
variable {g : Graph} {n m : Node} {id : String}

theorem edges_put (g : Graph) (n : Node) : (g.put n).edges = g.edges := by
  unfold put
  split <;> rfl

theorem any_id_iff (g : Graph) (id : String) : (g.vertices.any fun v => v.id == id) = true ↔ id ∈ g.ids := by
  simp [ids]

theorem ids_put (g : Graph) (n : Node) :
    (g.put n).ids = if n.id ∈ g.ids then g.ids else g.ids ++ [n.id] := by
  unfold put
  by_cases h : n.id ∈ g.ids
  · rw [if_pos ((any_id_iff g n.id).2 h), if_pos h]
    unfold ids
    rw [List.map_map]
    refine List.map_congr_left fun v _ => ?_
    by_cases hv : v.id = n.id <;> simp [hv]
  · rw [if_neg (mt (any_id_iff g n.id).1 h), if_neg h]
    simp [ids]

theorem mem_ids_put : id ∈ (g.put n).ids ↔ id ∈ g.ids ∨ id = n.id := by
  rw [ids_put]
  split
  next h =>
    constructor
    · exact .inl
    · rintro (h' | rfl)
      · exact h'
      · exact h
  next => simp

theorem nodup_ids_put (h : g.ids.Nodup) : (g.put n).ids.Nodup := by
  rw [ids_put]
  split
  next => exact h
  next hn =>
    refine List.nodup_append.2 ⟨h, List.nodup_singleton _, ?_⟩
    rintro a ha b hb rfl
    exact hn (List.mem_singleton.1 hb ▸ ha)

theorem mem_vertices_put {v : Vertex} (hv : v ∈ (g.put n).vertices) :
    v ∈ g.vertices ∨ v = ⟨n.id, some n⟩ := by
  unfold put at hv
  split at hv
  · obtain ⟨w, hw, rfl⟩ := List.mem_map.1 hv
    by_cases h : w.id = n.id
    · exact .inr (by simp [h])
    · exact .inl (by simpa [h] using hw)
  · simpa using hv

theorem Filled.put (hg : g.Filled) (n : Node) : (g.put n).Filled where
  vertex := by
    intro v hv
    rcases mem_vertices_put hv with hv | rfl
    · exact hg.vertex v hv
    · exact ⟨n, rfl⟩
  nodup := nodup_ids_put hg.nodup
  source := by
    rw [edges_put]
    exact fun e he => mem_ids_put.2 (.inl (hg.source e he))
  target := by
    rw [edges_put]
    exact fun e he => mem_ids_put.2 (.inl (hg.target e he))

theorem mem_ids_puts (s : String) (l : List Node) (g : Graph) :
    id ∈ (l.foldl (fun g n => g.put (n.scoped s)) g).ids ↔
      id ∈ g.ids ∨ ∃ n ∈ l, id = scopedId s n.id := by
  induction l generalizing g with
  | nil => simp
  | cons n l ih =>
    rw [List.foldl_cons, ih, mem_ids_put, or_assoc]
    simp only [List.mem_cons, exists_eq_or_imp]
    rfl

end

/-! ## Tidy graphs -/

/-- A filled graph whose names tell kinds and numbers. Nothing leads to the nodes of number one, and
there are no links. -/
structure Tidy (g : Graph) : Prop extends Filled g where
  tagged : ∀ n, g.Has n → ∃ i, Tagged n.kind i n.id
  entries : ∀ e ∈ g.edges, ∀ k, ¬ Tagged k 1 e.target
  no_links : ∀ e ∈ g.edges, e.kind ≠ .link

section
variable {g h : Graph} {n : Node} {e : Edge} {id s : String}

theorem tidy_empty (name : String) : (empty name).Tidy where
  vertex := by simp [empty]
  nodup := by simp [empty, ids]
  source := by simp [empty]
  target := by simp [empty]
  tagged := by simp [empty, Has]
  entries := by simp [empty]
  no_links := by simp [empty]

theorem Tidy.put (hg : g.Tidy) {i : Nat} (hn : Tagged n.kind i n.id) : (g.put n).Tidy where
  toFilled := hg.toFilled.put n
  tagged := by
    intro m hm
    rcases mem_vertices_put hm with hm | e
    · exact hg.tagged m hm
    · obtain rfl : m = n := by simpa using congrArg Vertex.node? e
      exact ⟨i, hn⟩
  entries := by
    rw [edges_put]
    exact hg.entries
  no_links := by
    rw [edges_put]
    exact hg.no_links

theorem touch_of_mem (hid : id ∈ g.ids) : g.touch id = g := if_pos ((any_id_iff g id).2 hid)

theorem vertices_addEdge (hs : e.source ∈ g.ids) (ht : e.target ∈ g.ids) :
    (g.addEdge e).vertices = g.vertices := by
  simp only [addEdge, touch_of_mem hs, touch_of_mem ht]
  split <;> rfl

theorem Filled.addEdge (hg : g.Filled) (hs : e.source ∈ g.ids) (ht : e.target ∈ g.ids) :
    (g.addEdge e).Filled := by
  have hv := vertices_addEdge hs ht
  have hids : (g.addEdge e).ids = g.ids := by rw [ids, hv, ids]
  refine ⟨by rw [hv]; exact hg.vertex, by rw [hids]; exact hg.nodup, ?_, ?_⟩
  · rw [hids]
    intro x hx
    obtain rfl | ⟨hx, -⟩ := mem_addEdge.1 hx
    · exact hs
    · exact hg.source x hx
  · rw [hids]
    intro x hx
    obtain rfl | ⟨hx, -⟩ := mem_addEdge.1 hx
    · exact ht
    · exact hg.target x hx

theorem Tidy.addEdge (hg : g.Tidy) (hs : e.source ∈ g.ids) (ht : e.target ∈ g.ids)
    (hent : ∀ k, ¬ Tagged k 1 e.target) (hk : e.kind ≠ .link) : (g.addEdge e).Tidy where
  toFilled := hg.toFilled.addEdge hs ht
  tagged := by
    unfold Has
    rw [vertices_addEdge hs ht]
    exact hg.tagged
  entries := by
    intro x hx
    obtain rfl | ⟨hx, -⟩ := mem_addEdge.1 hx
    · exact hent
    · exact hg.entries x hx
  no_links := by
    intro x hx
    obtain rfl | ⟨hx, -⟩ := mem_addEdge.1 hx
    · exact hk
    · exact hg.no_links x hx

/-! ## Merging -/

theorem mem_arranged_of (he : e ∈ g.arranged) : e ∈ g.edges := by
  obtain ⟨v, -, he⟩ := List.mem_flatMap.1 he
  exact (List.mem_filter.1 he).1

def scopedEdge (s : String) (e : Edge) : Edge :=
  { e with source := scopedId s e.source, target := scopedId s e.target }

theorem putScoped_eq (s : String) (l : List Node) (g : Graph) :
    putScoped s (l.map fun n => ⟨n.id, some n⟩) g =
      (.ok (), l.foldl (fun g n => g.put (n.scoped s)) g) := by
  induction l generalizing g with
  | nil => rfl
  | cons n l ih => exact ih _

theorem Filled.merge_eq (hh : h.Filled) (g : Graph) (s : String) :
    (g.merge h s).2 = h.arranged.foldl (fun g e => g.addEdge (scopedEdge s e))
      (h.content.foldl (fun g n => g.put (n.scoped s)) g) := by
  unfold merge
  rw [hh.vertices_eq, putScoped_eq]
  rfl

theorem Filled.merge_ok (hh : h.Filled) (g : Graph) (s : String) : (g.merge h s).1 = .ok () := by
  unfold merge
  rw [hh.vertices_eq, putScoped_eq]

theorem Filled.mem_ids_copied (hh : h.Filled) (hid : id ∈ h.ids) (g : Graph) (s : String) :
    scopedId s id ∈ (h.content.foldl (fun g n => g.put (n.scoped s)) g).ids := by
  rw [hh.ids_eq, List.mem_map] at hid
  obtain ⟨n, hn, rfl⟩ := hid
  exact (mem_ids_puts s h.content g).2 (.inr ⟨n, hn, rfl⟩)

/-- Putting nodes one after the other, of which the names tell kinds and numbers. -/
theorem Tidy.puts (hg : g.Tidy) (s : String) (l : List Node)
    (hl : ∀ n ∈ l, ∃ i, Tagged n.kind i n.id) :
    (l.foldl (fun g n => g.put (n.scoped s)) g).Tidy := by
  induction l generalizing g with
  | nil => exact hg
  | cons n l ih =>
    obtain ⟨i, hi⟩ := hl n List.mem_cons_self
    have hn : (g.put (n.scoped s)).Tidy := hg.put (n := n.scoped s) (hi.scoped s)
    exact ih hn fun m hm => hl m (List.mem_cons_of_mem n hm)

/-- Drawing edges one after the other between vertices that are there. -/
theorem Tidy.addEdges (hg : g.Tidy) (l : List Edge) (hs : ∀ e ∈ l, e.source ∈ g.ids)
    (ht : ∀ e ∈ l, e.target ∈ g.ids) (hent : ∀ e ∈ l, ∀ k, ¬ Tagged k 1 e.target)
    (hk : ∀ e ∈ l, e.kind ≠ .link) :
    (l.foldl Graph.addEdge g).Tidy ∧ (l.foldl Graph.addEdge g).vertices = g.vertices := by
  induction l generalizing g with
  | nil => exact ⟨hg, rfl⟩
  | cons e l ih =>
    have hv := vertices_addEdge (hs e List.mem_cons_self) (ht e List.mem_cons_self)
    have hids : (g.addEdge e).ids = g.ids := by rw [ids, hv, ids]
    have he : (g.addEdge e).Tidy := hg.addEdge (hs e List.mem_cons_self)
      (ht e List.mem_cons_self) (hent e List.mem_cons_self) (hk e List.mem_cons_self)
    obtain ⟨h₁, h₂⟩ := ih he (fun x hx => hids ▸ hs x (List.mem_cons_of_mem e hx))
      (fun x hx => hids ▸ ht x (List.mem_cons_of_mem e hx))
      (fun x hx => hent x (List.mem_cons_of_mem e hx))
      (fun x hx => hk x (List.mem_cons_of_mem e hx))
    exact ⟨h₁, h₂.trans hv⟩

def margin (g : Graph) : String × Option String × Nat := (g.name, g.entry, g.counter)

theorem margin_put (g : Graph) (n : Node) : (g.put n).margin = g.margin := by
  unfold put
  split <;> rfl

theorem margin_touch (g : Graph) (id : String) : (g.touch id).margin = g.margin := by
  unfold touch
  split <;> rfl

theorem margin_addEdge (g : Graph) (e : Edge) : (g.addEdge e).margin = g.margin := by
  unfold addEdge
  dsimp only
  split <;> exact (margin_touch _ _).trans (margin_touch _ _)

theorem counter_put (g : Graph) (n : Node) : (g.put n).counter = g.counter :=
  congrArg (fun m => m.2.2) (margin_put g n)

theorem counter_addEdge (g : Graph) (e : Edge) : (g.addEdge e).counter = g.counter :=
  congrArg (fun m => m.2.2) (margin_addEdge g e)

theorem margin_addEdges (l : List Edge) (g : Graph) : (l.foldl Graph.addEdge g).margin = g.margin := by
  induction l generalizing g with
  | nil => rfl
  | cons e l ih => exact (ih _).trans (margin_addEdge g e)

theorem margin_merge (g h : Graph) (s : String) : (g.merge h s).2.margin = g.margin := by
  have hput : ∀ (l : List Vertex) (g : Graph), (putScoped s l g).2.margin = g.margin := by
    intro l
    induction l with
    | nil => exact fun g => rfl
    | cons v l ih =>
      intro g
      unfold putScoped
      split
      · rfl
      · exact (ih _).trans (margin_put _ _)
  have hp := hput h.vertices g
  unfold merge
  split
  next heq => rwa [heq] at hp
  next g₁ heq =>
    rw [heq] at hp
    have hadd := margin_addEdges (h.arranged.map (scopedEdge s)) g₁
    rw [List.foldl_map] at hadd
    exact hadd.trans hp

/-- Merging a tidy graph adds its names under the scope, and nothing else. -/
theorem Tidy.merge (hg : g.Tidy) (hh : h.Tidy) (s : String) :
    (g.merge h s).2.Tidy ∧
      ∀ id, id ∈ (g.merge h s).2.ids ↔ id ∈ g.ids ∨ ∃ i ∈ h.ids, id = scopedId s i := by
  have hp := hg.puts s h.content fun n hn => hh.tagged n (hh.has_iff.2 hn)
  have hends : ∀ {i}, i ∈ h.ids →
      scopedId s i ∈ (h.content.foldl (fun g n => g.put (n.scoped s)) g).ids := fun hi =>
    hh.mem_ids_copied hi g s
  have hfold : (g.merge h s).2 = (h.arranged.map (scopedEdge s)).foldl Graph.addEdge
      (h.content.foldl (fun g n => g.put (n.scoped s)) g) := by
    rw [hh.merge_eq, List.foldl_map]
  have hl : ∀ x ∈ h.arranged.map (scopedEdge s), ∃ e ∈ h.edges, x = scopedEdge s e := by
    intro x hx
    obtain ⟨e, he, rfl⟩ := List.mem_map.1 hx
    exact ⟨e, mem_arranged_of he, rfl⟩
  obtain ⟨ht, hv⟩ := hp.addEdges (h.arranged.map (scopedEdge s))
    (fun x hx => by
      obtain ⟨e, he, rfl⟩ := hl x hx
      exact hends (hh.source e he))
    (fun x hx => by
      obtain ⟨e, he, rfl⟩ := hl x hx
      exact hends (hh.target e he))
    (fun x hx k hk => by
      -- the end of a merged edge has the number that it had before
      obtain ⟨e, he, rfl⟩ := hl x hx
      obtain ⟨n, hn, hid⟩ := hh.exists_has (hh.target e he)
      obtain ⟨i, hi⟩ := hh.tagged n hn
      rw [hid] at hi
      obtain ⟨rfl, rfl⟩ := (hi.scoped s).unique hk
      exact hh.entries e he _ hi)
    (fun x hx => by
      obtain ⟨e, he, rfl⟩ := hl x hx
      exact hh.no_links e he)
  rw [hfold]
  refine ⟨ht, fun id => ?_⟩
  rw [ids, hv]
  refine (mem_ids_puts s h.content g).trans (or_congr_right ?_)
  rw [hh.ids_eq]
  simp

/-- Merging tidy graphs one after the other, each under its own scope. -/
theorem Tidy.merges (hg : g.Tidy) (l : List (String × Graph)) (hl : ∀ p ∈ l, p.2.Tidy) :
    (l.foldl (fun g p => (g.merge p.2 p.1).2) g).Tidy ∧
      ∀ id, id ∈ (l.foldl (fun g p => (g.merge p.2 p.1).2) g).ids ↔
        id ∈ g.ids ∨ ∃ p ∈ l, ∃ i ∈ p.2.ids, id = scopedId p.1 i := by
  induction l generalizing g with
  | nil => exact ⟨hg, by simp⟩
  | cons p l ih =>
    obtain ⟨hp, hids⟩ := hg.merge (hl p List.mem_cons_self) p.1
    obtain ⟨ht, hrest⟩ := ih hp fun q hq => hl q (List.mem_cons_of_mem p hq)
    refine ⟨ht, fun id => ?_⟩
    rw [List.foldl_cons, hrest, hids, or_assoc]
    simp only [List.mem_cons, exists_eq_or_imp]

end

/-! ## Numbered graphs -/

theorem Numbered.filled {g : Graph} (hg : g.Numbered) : g.Filled where
  vertex := by
    intro v hv
    obtain ⟨i, hi⟩ := List.mem_iff_getElem?.1 hv
    obtain ⟨n, hn, -⟩ := hg.vertex i v hi
    exact ⟨n, hn⟩
  nodup := by
    -- names at two places have the numbers of these places
    refine List.nodup_iff_getElem?_ne_getElem?.2 fun i j hij hj e => ?_
    unfold ids at hj e
    rw [List.length_map] at hj
    have hi := List.getElem?_eq_getElem (Nat.lt_trans hij hj)
    have hj' := List.getElem?_eq_getElem hj
    rw [List.getElem?_map, List.getElem?_map, hi, hj', Option.map_some, Option.map_some] at e
    obtain ⟨m, hm, hmi⟩ := hg.vertex i _ hi
    obtain ⟨n, hn, hnj⟩ := hg.vertex j _ hj'
    rw [hm, hn] at e
    obtain ⟨-, hne⟩ := nodeId_inj (hmi.symm.trans ((Option.some.inj e).trans hnj))
    omega
  source := by
    intro e he
    obtain ⟨n, hn, hid⟩ := hg.source e he
    exact hid ▸ mem_ids_of_has hn
  target := by
    intro e he
    obtain ⟨n, hn, hid⟩ := hg.target e he
    exact hid ▸ mem_ids_of_has hn

/-- A numbered graph without links is tidy if nothing leads to its first node. -/
theorem Numbered.tidy {g : Graph} (hg : g.Numbered) (hk : ∀ e ∈ g.edges, e.kind ≠ .link)
    {n : Node} (hn : g.vertices[0]? = some ⟨n.id, some n⟩) (hfree : ∀ u, ¬ g.Linked u n.id) :
    g.Tidy where
  toFilled := hg.filled
  tagged := by
    intro m hm
    obtain ⟨i, -, -, hid⟩ := hg.id_of_has hm
    exact ⟨i + 1, .inl hid⟩
  entries := by
    intro e he k hk
    obtain ⟨m, hm, hid⟩ := hg.target e he
    obtain ⟨i, -, hi, hmi⟩ := hg.id_of_has hm
    rw [← hid] at hk
    obtain ⟨-, hone⟩ := hk.unique (.inl hmi)
    obtain rfl : i = 0 := by omega
    rw [hn] at hi
    obtain rfl : n = m := by simpa using congrArg (Option.map Vertex.node?) hi
    exact hfree e.source ⟨e, he, rfl, hid.symm⟩
  no_links := hk

end Graph

end Workbench.Flow
