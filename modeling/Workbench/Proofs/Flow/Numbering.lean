import Workbench.Flow.Graph

/-!
# Numbered graphs

A graph that only ever gains numbered nodes, and edges between them, keeps a simple form: its `i`-th
vertex holds the node of number `i`, and every edge ends at vertices that hold nodes. In such a
graph the name of a node tells the node, and a new node is different from all others.
-/

namespace Workbench.Flow

def nodeId (kind : NodeKind) (i : Nat) : String := kind.word ++ "_" ++ Decimal.digitText i

theorem digitText_inj {i j : Nat} (h : Decimal.digitText i = Decimal.digitText j) : i = j := by
  unfold Decimal.digitText at h
  rw [← Nat.ofDigitChars_ten_toDigits (n := i), String.ofList_injective h,
    Nat.ofDigitChars_ten_toDigits]

theorem word_append_inj {k k' : NodeKind} {s t : String} (h : k.word ++ s = k'.word ++ t) :
    k = k' ∧ s = t := by
  have hk : k = k' := by
    have := congrArg (fun x => x.toList.head?) h
    cases k <;> cases k' <;> first | rfl | simp [NodeKind.word, String.toList_append] at this
  subst hk
  exact ⟨rfl, (String.append_right_inj _).1 h⟩

theorem nodeId_inj {k k' : NodeKind} {i j : Nat} (h : nodeId k i = nodeId k' j) :
    k = k' ∧ i = j := by
  unfold nodeId at h
  rw [String.append_assoc, String.append_assoc] at h
  obtain ⟨hk, hd⟩ := word_append_inj h
  exact ⟨hk, digitText_inj ((String.append_right_inj "_").1 hd)⟩

namespace Graph

/-! ## Nodes, links and degrees -/

def Has (g : Graph) (n : Node) : Prop := ⟨n.id, some n⟩ ∈ g.vertices

def Linked (g : Graph) (u v : String) : Prop := ∃ e ∈ g.edges, e.source = u ∧ e.target = v

def outgoing (g : Graph) (n : Node) : List Edge := g.edges.filter fun e => e.source == n.id

def incoming (g : Graph) (n : Node) : List Edge := g.edges.filter fun e => e.target == n.id

theorem outgoing_eq_nil {g : Graph} {n : Node} :
    g.outgoing n = [] ↔ ∀ e ∈ g.edges, e.source ≠ n.id := by
  simp [outgoing, List.filter_eq_nil_iff]

theorem not_linked_of_outgoing_eq_nil {g : Graph} {n : Node} (h : g.outgoing n = []) (v : String) :
    ¬ g.Linked n.id v := by
  rintro ⟨e, he, hs, -⟩
  exact outgoing_eq_nil.1 h e he hs

theorem linked_iff_mem_outgoing {g : Graph} {n : Node} {v : String} :
    g.Linked n.id v ↔ ∃ e ∈ g.outgoing n, e.target = v := by
  simp [Linked, outgoing, and_assoc]

/-! ## Drawing an edge -/

theorem touch_edges (g : Graph) (id : String) : (g.touch id).edges = g.edges := by
  unfold touch
  split <;> rfl

theorem touch_of_has {g : Graph} {n : Node} (h : g.Has n) : g.touch n.id = g := by
  have : (g.vertices.any fun v => v.id == n.id) = true := by
    rw [List.any_eq_true]
    exact ⟨_, h, by simp⟩
  unfold touch
  rw [if_pos this]

/-- The edges after drawing one: it takes the place of an edge with the same ends. -/
theorem mem_addEdge {g : Graph} {e x : Edge} : x ∈ (g.addEdge e).edges ↔
    x = e ∨ (x ∈ g.edges ∧ ¬ (x.source = e.source ∧ x.target = e.target)) := by
  simp only [addEdge, touch_edges]
  split
  next h =>
    rw [List.any_eq_true] at h
    obtain ⟨y, hy, hye⟩ := h
    simp only [Bool.and_eq_true, beq_iff_eq] at hye
    simp only [List.mem_map, Bool.and_eq_true, beq_iff_eq]
    constructor
    · rintro ⟨z, hz, rfl⟩
      by_cases hze : z.source = e.source ∧ z.target = e.target
      · exact .inl (if_pos hze)
      · rw [if_neg hze]
        exact .inr ⟨hz, hze⟩
    · rintro (rfl | ⟨hx, hxe⟩)
      · exact ⟨y, hy, if_pos hye⟩
      · exact ⟨x, hx, if_neg hxe⟩
  next h =>
    simp only [Bool.not_eq_true, List.any_eq_false, Bool.and_eq_true, beq_iff_eq] at h
    simp only [List.mem_append, List.mem_singleton]
    constructor
    · rintro (hx | rfl)
      · exact .inr ⟨hx, h x hx⟩
      · exact .inl rfl
    · rintro (rfl | ⟨hx, -⟩)
      · exact .inr rfl
      · exact .inl hx

theorem linked_addEdge {g : Graph} {e : Edge} {u v : String} :
    (g.addEdge e).Linked u v ↔ g.Linked u v ∨ (u = e.source ∧ v = e.target) := by
  constructor
  · rintro ⟨x, hx, rfl, rfl⟩
    obtain rfl | ⟨hx, -⟩ := mem_addEdge.1 hx
    · exact .inr ⟨rfl, rfl⟩
    · exact .inl ⟨x, hx, rfl, rfl⟩
  · rintro (⟨x, hx, rfl, rfl⟩ | ⟨rfl, rfl⟩)
    · by_cases hxe : x.source = e.source ∧ x.target = e.target
      · exact ⟨e, mem_addEdge.2 (.inl rfl), hxe.1.symm, hxe.2.symm⟩
      · exact ⟨x, mem_addEdge.2 (.inr ⟨hx, hxe⟩), rfl, rfl⟩
    · exact ⟨e, mem_addEdge.2 (.inl rfl), rfl, rfl⟩

theorem edges_addEdge_of_not_linked {g : Graph} {e : Edge} (h : ¬ g.Linked e.source e.target) :
    (g.addEdge e).edges = g.edges ++ [e] := by
  simp only [addEdge, touch_edges]
  rw [if_neg]
  intro ha
  obtain ⟨x, hx, hxe⟩ := List.any_eq_true.1 ha
  simp only [Bool.and_eq_true, beq_iff_eq] at hxe
  exact h ⟨x, hx, hxe⟩

theorem outgoing_addEdge_of_ne {g : Graph} {e : Edge} {n : Node} (h : e.source ≠ n.id) :
    (g.addEdge e).outgoing n = g.outgoing n := by
  unfold outgoing
  simp only [addEdge, touch_edges]
  split
  · -- a replaced edge has the same source as the new one, so neither is kept
    induction g.edges with
    | nil => rfl
    | cons x l ih =>
      rw [List.map_cons, List.filter_cons, List.filter_cons, ih]
      by_cases hx : x.source = e.source ∧ x.target = e.target
      · simp [hx, h]
      · simp [hx]
  · simp [h]

/-! ## Numbered graphs -/

/-- The `i`-th vertex holds the node of number `i`, and edges run between nodes. -/
structure Numbered (g : Graph) : Prop where
  counter : g.counter = g.vertices.length
  vertex : ∀ i v, g.vertices[i]? = some v →
    ∃ n : Node, v = ⟨n.id, some n⟩ ∧ n.id = nodeId n.kind (i + 1)
  source : ∀ e ∈ g.edges, ∃ n, g.Has n ∧ n.id = e.source
  target : ∀ e ∈ g.edges, ∃ n, g.Has n ∧ n.id = e.target

theorem numbered_empty (name : String) : (empty name).Numbered :=
  ⟨rfl, by simp [empty], by simp [empty], by simp [empty]⟩

theorem Numbered.id_of_has {g : Graph} (hg : g.Numbered) {n : Node} (h : g.Has n) :
    ∃ i, i < g.vertices.length ∧ g.vertices[i]? = some ⟨n.id, some n⟩ ∧
      n.id = nodeId n.kind (i + 1) := by
  obtain ⟨i, hi⟩ := List.mem_iff_getElem?.1 h
  obtain ⟨m, hm, hid⟩ := hg.vertex i _ hi
  obtain rfl : n = m := by simpa using congrArg Vertex.node? hm
  exact ⟨i, (List.getElem?_eq_some_iff.1 hi).1, hi, hid⟩

theorem Numbered.eq_of_id {g : Graph} (hg : g.Numbered) {m n : Node} (hm : g.Has m) (hn : g.Has n)
    (h : m.id = n.id) : m = n := by
  obtain ⟨i, -, hi, hmi⟩ := hg.id_of_has hm
  obtain ⟨j, -, hj, hnj⟩ := hg.id_of_has hn
  obtain ⟨-, hij⟩ := nodeId_inj (hmi.symm.trans (h.trans hnj))
  obtain rfl : i = j := by omega
  rw [hi] at hj
  simpa using congrArg (Option.map Vertex.node?) hj

theorem Numbered.node?_of_has {g : Graph} (hg : g.Numbered) {n : Node} (h : g.Has n) :
    g.node? n.id = some n := by
  unfold node? vertex?
  cases hf : g.vertices.find? fun v => v.id == n.id with
  | none => exact absurd (List.find?_eq_none.1 hf _ h) (by simp)
  | some v =>
    obtain ⟨i, hi⟩ := List.mem_iff_getElem?.1 (List.mem_of_find?_eq_some hf)
    obtain ⟨m, rfl, -⟩ := hg.vertex i v hi
    have hid : m.id = n.id := by simpa using List.find?_some hf
    rw [hg.eq_of_id (List.mem_iff_getElem?.2 ⟨i, hi⟩) h hid]
    rfl

/-! ## Adding a node -/

def fresh (g : Graph) (kind : NodeKind) (label : Label) (description : Value) : Node :=
  (g.addNode kind label description).1

theorem Numbered.fresh_id_ne {g : Graph} (hg : g.Numbered) {kind : NodeKind} {label : Label}
    {description : Value} {m : Node} (hm : g.Has m) : m.id ≠ (g.fresh kind label description).id := by
  intro h
  obtain ⟨i, hi, -, hid⟩ := hg.id_of_has hm
  obtain ⟨-, hij⟩ := nodeId_inj (hid.symm.trans h)
  have := hg.counter
  omega

theorem Numbered.addNode_eq {g : Graph} (hg : g.Numbered) (kind : NodeKind) (label : Label)
    (description : Value) :
    (g.addNode kind label description).2 =
      { g with
        counter := g.counter + 1
        vertices := g.vertices ++ [⟨(g.fresh kind label description).id,
          some (g.fresh kind label description)⟩] } := by
  have hf : (g.vertices.any fun v => v.id == (g.fresh kind label description).id) = false := by
    rw [List.any_eq_false]
    intro v hv
    obtain ⟨i, hi⟩ := List.mem_iff_getElem?.1 hv
    obtain ⟨m, rfl, -⟩ := hg.vertex i v hi
    simpa using hg.fresh_id_ne hv
  exact if_neg (Bool.eq_false_iff.1 hf)

theorem Numbered.has_addNode {g : Graph} (hg : g.Numbered) {kind : NodeKind} {label : Label}
    {description : Value} {m : Node} :
    (g.addNode kind label description).2.Has m ↔
      g.Has m ∨ m = g.fresh kind label description := by
  rw [hg.addNode_eq]
  simp only [Has, List.mem_append, List.mem_singleton]
  constructor
  · rintro (h | h)
    · exact .inl h
    · exact .inr (by simpa using congrArg Vertex.node? h)
  · rintro (h | rfl)
    · exact .inl h
    · exact .inr rfl

theorem Numbered.addNode {g : Graph} (hg : g.Numbered) (kind : NodeKind) (label : Label)
    (description : Value) : (g.addNode kind label description).2.Numbered where
  counter := by
    rw [hg.addNode_eq]
    simp [hg.counter]
  vertex := by
    rw [hg.addNode_eq]
    intro i v hv
    simp only [List.getElem?_append] at hv
    split at hv
    · exact hg.vertex i v hv
    · obtain ⟨hi, rfl⟩ : i - g.vertices.length = 0 ∧ _ := by
        simpa [List.getElem?_singleton] using hv
      refine ⟨_, rfl, ?_⟩
      obtain rfl : i = g.vertices.length := by omega
      rw [← hg.counter]
      rfl
  source := by
    intro e he
    rw [hg.addNode_eq] at he
    obtain ⟨n, hn, hid⟩ := hg.source e he
    exact ⟨n, hg.has_addNode.2 (.inl hn), hid⟩
  target := by
    intro e he
    rw [hg.addNode_eq] at he
    obtain ⟨n, hn, hid⟩ := hg.target e he
    exact ⟨n, hg.has_addNode.2 (.inl hn), hid⟩

theorem addEdge_vertices {g : Graph} {u v : Node} (hu : g.Has u) (hv : g.Has v) (kind : EdgeKind)
    (label : String) : (g.addEdge ⟨u.id, v.id, kind, label⟩).vertices = g.vertices := by
  simp only [Graph.addEdge, touch_of_has hu, touch_of_has hv]
  split <;> rfl

theorem addEdge_counter {g : Graph} {u v : Node} (hu : g.Has u) (hv : g.Has v) (kind : EdgeKind)
    (label : String) : (g.addEdge ⟨u.id, v.id, kind, label⟩).counter = g.counter := by
  simp only [Graph.addEdge, touch_of_has hu, touch_of_has hv]
  split <;> rfl

theorem Numbered.addEdge {g : Graph} (hg : g.Numbered) {u v : Node} (hu : g.Has u) (hv : g.Has v)
    (kind : EdgeKind) (label : String) : (g.addEdge ⟨u.id, v.id, kind, label⟩).Numbered where
  counter := by rw [addEdge_counter hu hv, addEdge_vertices hu hv, hg.counter]
  vertex := by
    rw [addEdge_vertices hu hv]
    exact hg.vertex
  source := by
    intro e he
    unfold Has
    rw [addEdge_vertices hu hv]
    obtain rfl | ⟨he, -⟩ := mem_addEdge.1 he
    · exact ⟨u, hu, rfl⟩
    · exact hg.source e he
  target := by
    intro e he
    unfold Has
    rw [addEdge_vertices hu hv]
    obtain rfl | ⟨he, -⟩ := mem_addEdge.1 he
    · exact ⟨v, hv, rfl⟩
    · exact hg.target e he

end Graph

end Workbench.Flow
