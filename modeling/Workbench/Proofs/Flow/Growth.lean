import Workbench.Proofs.Flow.Yielding

/-!
# How drafts grow

Drawing changes a draft by moves of a few kinds: a join that nothing leads to yet, a new node behind
an old one, an edge to a join or to the function's end, an edge back to the header of a loop. A move
draws on from one node and leaves alone what leads out of all others. So does a run of moves, as
long as each draws on from the node where the run began or from a node that came in since.
-/

namespace Workbench.Flow

/-! ## Elementary changes -/

namespace Draft

variable {d : Draft} {c m u v : Node} {kind : NodeKind} {label : Label} {edgeLabel : String} {edge : EdgeKind}

theorem fresh_not_has (hd : d.graph.Numbered) : ¬ d.graph.Has (d.fresh kind label) :=
  fun h => hd.fresh_id_ne h rfl

theorem has_withNode (hd : d.graph.Numbered) :
    (d.withNode kind label).graph.Has m ↔ d.graph.Has m ∨ m = d.fresh kind label :=
  hd.has_addNode

theorem edges_withNode (hd : d.graph.Numbered) :
    (d.withNode kind label).graph.edges = d.graph.edges := by
  unfold withNode
  rw [hd.addNode_eq]

theorem outgoing_withNode (hd : d.graph.Numbered) (n : Node) :
    (d.withNode kind label).graph.outgoing n = d.graph.outgoing n := by
  unfold Graph.outgoing
  rw [edges_withNode hd]

theorem linked_withNode (hd : d.graph.Numbered) {s t : String} :
    (d.withNode kind label).graph.Linked s t ↔ d.graph.Linked s t := by
  unfold Graph.Linked
  rw [edges_withNode hd]

theorem entry_withNode (hd : d.graph.Numbered) :
    (d.withNode kind label).graph.entry = d.graph.entry := by
  unfold withNode
  rw [hd.addNode_eq]

theorem vertices_withNode (hd : d.graph.Numbered) :
    (d.withNode kind label).graph.vertices =
      d.graph.vertices ++ [⟨(d.fresh kind label).id, some (d.fresh kind label)⟩] := by
  unfold withNode
  rw [hd.addNode_eq]
  rfl

theorem vertices_withEdge (hu : d.graph.Has u) (hv : d.graph.Has v) :
    (d.withEdge u v edge edgeLabel).graph.vertices = d.graph.vertices :=
  Graph.addEdge_vertices hu hv edge edgeLabel

theorem has_withEdge (hu : d.graph.Has u) (hv : d.graph.Has v) :
    (d.withEdge u v edge edgeLabel).graph.Has m ↔ d.graph.Has m := by
  unfold Graph.Has
  rw [vertices_withEdge hu hv]

theorem has_joined {ends : List Node} (he : ∀ n ∈ ends, d.graph.Has n) (hv : d.graph.Has v) :
    (d.joined ends v).graph.Has m ↔ d.graph.Has m := by
  induction ends generalizing d with
  | nil => rfl
  | cons n ends ih =>
    have hn := he n List.mem_cons_self
    exact (ih (fun k hk => (has_withEdge hn hv).2 (he k (List.mem_cons_of_mem n hk)))
      ((has_withEdge hn hv).2 hv)).trans (has_withEdge hn hv)

theorem entry_withEdge (hu : d.graph.Has u) (hv : d.graph.Has v) :
    (d.withEdge u v edge edgeLabel).graph.entry = d.graph.entry := by
  simp only [withEdge, Graph.addEdge, Graph.touch_of_has hu, Graph.touch_of_has hv]
  split <;> rfl

theorem numbered_withEdge (hd : d.graph.Numbered) (hu : d.graph.Has u) (hv : d.graph.Has v) :
    (d.withEdge u v edge edgeLabel).graph.Numbered :=
  hd.addEdge hu hv edge edgeLabel

theorem linked_withEdge {s t : String} :
    (d.withEdge u v edge edgeLabel).graph.Linked s t ↔
      d.graph.Linked s t ∨ (s = u.id ∧ t = v.id) :=
  Graph.linked_addEdge

/-! ## A new node behind an old one -/

theorem not_linked_fresh (hd : d.graph.Numbered) (s : String) :
    ¬ d.graph.Linked s (d.fresh kind label).id := by
  rintro ⟨e, he, -, ht⟩
  obtain ⟨n, hn, hid⟩ := hd.target e he
  exact hd.fresh_id_ne hn (hid.trans ht)

theorem outgoing_fresh (hd : d.graph.Numbered) : d.graph.outgoing (d.fresh kind label) = [] := by
  rw [Graph.outgoing_eq_nil]
  intro e he hs
  obtain ⟨n, hn, hid⟩ := hd.source e he
  exact hd.fresh_id_ne hn (hid.trans hs)

theorem has_fresh_withNode (hd : d.graph.Numbered) :
    (d.withNode kind label).graph.Has (d.fresh kind label) :=
  (has_withNode hd).2 (.inr rfl)

theorem has_grown (hd : d.graph.Numbered) (hc : d.graph.Has c) :
    (d.grown c kind label edge edgeLabel).graph.Has m ↔
      d.graph.Has m ∨ m = d.fresh kind label := by
  unfold grown
  rw [has_withEdge ((has_withNode hd).2 (.inl hc)) (has_fresh_withNode hd), has_withNode hd]

theorem numbered_grown (hd : d.graph.Numbered) (hc : d.graph.Has c) :
    (d.grown c kind label edge edgeLabel).graph.Numbered :=
  numbered_withEdge (hd.addNode kind label _) ((has_withNode hd).2 (.inl hc))
    (has_fresh_withNode hd)

theorem vertices_grown (hd : d.graph.Numbered) (hc : d.graph.Has c) :
    (d.grown c kind label edge edgeLabel).graph.vertices =
      d.graph.vertices ++ [⟨(d.fresh kind label).id, some (d.fresh kind label)⟩] := by
  unfold grown
  rw [vertices_withEdge ((has_withNode hd).2 (.inl hc)) (has_fresh_withNode hd),
    vertices_withNode hd]

theorem edges_grown (hd : d.graph.Numbered) :
    (d.grown c kind label edge edgeLabel).graph.edges =
      d.graph.edges ++ [⟨c.id, (d.fresh kind label).id, edge, edgeLabel⟩] := by
  have h : ¬ (d.withNode kind label).graph.Linked c.id (d.fresh kind label).id :=
    mt (linked_withNode hd).1 (not_linked_fresh hd c.id)
  unfold grown withEdge
  rw [Graph.edges_addEdge_of_not_linked h, edges_withNode hd]

theorem sink_grown (hd : d.graph.Numbered) (hc : d.graph.Has c) :
    (d.grown c kind label edge edgeLabel).graph.outgoing (d.fresh kind label) = [] := by
  rw [Graph.outgoing_eq_nil, edges_grown hd]
  intro e he
  rcases List.mem_append.1 he with he | he
  · exact Graph.outgoing_eq_nil.1 (outgoing_fresh hd) e he
  · rw [List.mem_singleton.1 he]
    exact hd.fresh_id_ne hc

theorem linked_grown (hd : d.graph.Numbered) {s t : String} :
    (d.grown c kind label edge edgeLabel).graph.Linked s t ↔
      d.graph.Linked s t ∨ (s = c.id ∧ t = (d.fresh kind label).id) := by
  unfold grown
  rw [linked_withEdge, linked_withNode hd]

end Draft

/-! ## What a step leaves alone -/

/-- A draft that came from another by drawing on from `c` and from new nodes. -/
structure Grows (c : Node) (d d' : Draft) : Prop where
  vertices : d.graph.vertices <+: d'.graph.vertices
  outgoing : ∀ n, d.graph.Has n → n ≠ c → d'.graph.outgoing n = d.graph.outgoing n
  linked : ∀ s t, d.graph.Linked s t → d'.graph.Linked s t
  entry : d'.graph.entry = d.graph.entry
  exit : d'.exit = d.exit

namespace Grows

variable {c n : Node} {d d₁ d' : Draft}

theorem refl (c : Node) (d : Draft) : Grows c d d :=
  ⟨List.prefix_rfl, fun _ _ _ => rfl, fun _ _ h => h, rfl, rfl⟩

theorem has (h : Grows c d d') {m : Node} (hm : d.graph.Has m) : d'.graph.Has m :=
  h.vertices.subset hm

theorem trans (h₁ : Grows c d d₁) (h₂ : Grows n d₁ d') (hn : n = c ∨ ¬ d.graph.Has n) :
    Grows c d d' where
  vertices := h₁.vertices.trans h₂.vertices
  outgoing := by
    intro m hm hmc
    have hmn : m ≠ n := by
      rintro rfl
      exact hn.elim hmc fun h => h hm
    rw [h₂.outgoing m (h₁.has hm) hmn, h₁.outgoing m hm hmc]
  linked := fun s t h => h₂.linked s t (h₁.linked s t h)
  entry := h₂.entry.trans h₁.entry
  exit := h₂.exit.trans h₁.exit

theorem withLoops (l : List Loop) : Grows c d (d.withLoops l) :=
  ⟨List.prefix_rfl, fun _ _ _ => rfl, fun _ _ h => h, rfl, rfl⟩

theorem withNode (hd : d.graph.Numbered) (kind : NodeKind) (label : Label) :
    Grows c d (d.withNode kind label) where
  vertices := by
    rw [Draft.vertices_withNode hd]
    exact List.prefix_append _ _
  outgoing := fun m _ _ => Draft.outgoing_withNode hd m
  linked := fun _ _ => (Draft.linked_withNode hd).2
  entry := Draft.entry_withNode hd
  exit := rfl

theorem withEdge (hd : d.graph.Numbered) {u v : Node} (hu : d.graph.Has u) (hv : d.graph.Has v)
    (kind : EdgeKind) (label : String) : Grows u d (d.withEdge u v kind label) where
  vertices := Draft.vertices_withEdge hu hv ▸ List.prefix_rfl
  outgoing := by
    intro m hm hmu
    exact Graph.outgoing_addEdge_of_ne fun h => hmu (hd.eq_of_id hm hu h.symm)
  linked := fun _ _ h => Draft.linked_withEdge.2 (.inl h)
  entry := Draft.entry_withEdge hu hv
  exit := rfl

theorem grown (hd : d.graph.Numbered) (hc : d.graph.Has c) (kind : NodeKind) (label : Label)
    (edge : EdgeKind) (edgeLabel : String) : Grows c d (d.grown c kind label edge edgeLabel) :=
  (Grows.withNode hd kind label).trans
    (Grows.withEdge (hd.addNode kind label _) ((Draft.has_withNode hd).2 (.inl hc))
      (Draft.has_fresh_withNode hd) edge edgeLabel) (.inl rfl)

end Grows

/-! ## Moves -/

def Edge.isBack (e : Edge) : Bool :=
  e.kind == .jump && (e.label == "repeat" || e.label == "continue")

def Graph.Rooted (g : Graph) (n : Node) : Prop :=
  n.kind = .join ∨ g.entry = some n.id ∨ ∃ u, g.Linked u n.id

structure Footing (d : Draft) (c : Node) : Prop where
  has : d.graph.Has c
  rooted : d.graph.Rooted c
  not_exit : c.kind ≠ .exit

theorem Graph.rooted_fresh {d : Draft} {c : Node} {kind : NodeKind} {label : Label} {edgeLabel : String}
    {edge : EdgeKind} (hd : d.graph.Numbered) :
    (d.grown c kind label edge edgeLabel).graph.Rooted (d.fresh kind label) :=
  .inr (.inr ⟨c.id, (Draft.linked_grown hd).2 (.inr ⟨rfl, rfl⟩)⟩)

theorem Footing.fresh {d : Draft} {c : Node} {kind : NodeKind} {label : Label} {edgeLabel : String}
    {edge : EdgeKind} (hd : d.graph.Numbered) (hc : d.graph.Has c) (hk : kind ≠ .exit) :
    Footing (d.grown c kind label edge edgeLabel) (d.fresh kind label) :=
  ⟨(Draft.has_grown hd hc).2 (.inr rfl), Graph.rooted_fresh hd, hk⟩

/-- In which the two languages differ. -/
structure Manner where
  -- when an edge may be drawn from a node, which some edges leave already, to another
  free : List Edge → Node → Node → Prop
  -- whether a fork may come with a block that nothing leads to
  dummies : Prop

/-- A move that draws on from a node. A fork comes in together with the node after it. -/
inductive Move (m : Manner) (x : Node) : Node → Draft → Draft → Prop
  | loops {c d} (l : List Loop) : Move m x c d (d.withLoops l)
  | join {c d} (label : Label) : Move m x c d (d.withNode .join label)
  | grow {c d kind label edge edgeLabel} : Footing d c → m.free (d.graph.outgoing c) c (d.fresh kind label) →
      kind ≠ .fork → (kind = .exit → label.text = "panic!") → edge ≠ .jump →
      Move m x c d (d.grown c kind label edge edgeLabel)
  | forkBranch {c d label edge edgeLabel nextLabel} : Footing d c →
      m.free (d.graph.outgoing c) c (d.fresh .fork label) → edge ≠ .jump →
      m.free [] (d.fresh .fork label) ((d.grown c .fork label .seq "").fresh .virtual nextLabel) →
      Move m x c d ((d.grown c .fork label .seq "").grown (d.fresh .fork label) .virtual nextLabel
        edge edgeLabel)
  | forkJoin {c d label nextLabel} : Footing d c → m.free (d.graph.outgoing c) c (d.fresh .fork label) →
      Move m x c d ((d.grown c .fork label .seq "").withNode .join nextLabel)
  | forkThen {c d label} : Footing d c → m.free (d.graph.outgoing c) c (d.fresh .fork label) → m.dummies →
      Move m x c d ((d.grown c .fork label .seq "").withNode .block "Then")
  | leave {c d label edge} : Footing d c → m.free (d.graph.outgoing c) c (d.fresh .exit label) →
      (label.text = "return" ∧ edge = .seq ∨ label.text = "raise" ∧ edge = .err) →
      Move m x c d ((d.grown c .exit label .seq "").withEdge (d.fresh .exit label) x edge "")
  | link {c d t edge label} : Footing d c → d.graph.Has t → t ≠ c → t.kind = .join ∨ t = x →
      d.graph.outgoing t = [] → m.free (d.graph.outgoing c) c t →
      Edge.isBack ⟨c.id, t.id, edge, label⟩ = false → Move m x c d (d.withEdge c t edge label)
  | back {c d t label} : Footing d c → d.graph.Has t → t.kind = .fork ∨ t.kind = .join →
      (∃ u, d.graph.Linked u t.id) → m.free (d.graph.outgoing c) c t →
      Edge.isBack ⟨c.id, t.id, .jump, label⟩ = true → Move m x c d (d.withEdge c t .jump label)

/-- Moves that draw on from `c` and from nodes that came in since. -/
inductive Run (m : Manner) (x c : Node) (d : Draft) : Draft → Prop
  | refl : Run m x c d d
  | step {n d₁ d₂} : Run m x c d d₁ → Move m x n d₁ d₂ → n = c ∨ ¬ d.graph.Has n → Run m x c d d₂

section
variable {m : Manner} {x c n : Node} {d d₁ d' : Draft}

theorem Move.grows (hd : d.graph.Numbered) (hx : d.graph.Has x) (h : Move m x c d d') :
    d'.graph.Numbered ∧ Grows c d d' := by
  have behind : ∀ kind label, Footing d c → (d.grown c kind label .seq "").graph.Numbered ∧
      Grows c d (d.grown c kind label .seq "") ∧
      (d.grown c kind label .seq "").graph.Has (d.fresh kind label) := fun kind label hc =>
    ⟨Draft.numbered_grown hd hc.has, Grows.grown hd hc.has _ _ _ _,
      (Draft.has_grown hd hc.has).2 (.inr rfl)⟩
  cases h with
  | loops l => exact ⟨hd, Grows.withLoops l⟩
  | join label => exact ⟨hd.addNode _ _ _, Grows.withNode hd _ _⟩
  | grow hc => exact ⟨Draft.numbered_grown hd hc.has, Grows.grown hd hc.has _ _ _ _⟩
  | forkBranch hc =>
    obtain ⟨h₁, h₂, h₃⟩ := behind _ _ hc
    exact ⟨Draft.numbered_grown h₁ h₃, h₂.trans (Grows.grown h₁ h₃ _ _ _ _)
      (.inr (Draft.fresh_not_has hd))⟩
  | forkJoin hc =>
    obtain ⟨h₁, h₂, -⟩ := behind _ _ hc
    exact ⟨h₁.addNode _ _ _, h₂.trans (Grows.withNode h₁ _ _) (.inl rfl)⟩
  | forkThen hc =>
    obtain ⟨h₁, h₂, -⟩ := behind _ _ hc
    exact ⟨h₁.addNode _ _ _, h₂.trans (Grows.withNode h₁ _ _) (.inl rfl)⟩
  | leave hc =>
    obtain ⟨h₁, h₂, h₃⟩ := behind _ _ hc
    exact ⟨Draft.numbered_withEdge h₁ h₃ (h₂.has hx),
      h₂.trans (Grows.withEdge h₁ h₃ (h₂.has hx) _ _) (.inr (Draft.fresh_not_has hd))⟩
  | link hc ht => exact ⟨Draft.numbered_withEdge hd hc.has ht, Grows.withEdge hd hc.has ht _ _⟩
  | back hc ht => exact ⟨Draft.numbered_withEdge hd hc.has ht, Grows.withEdge hd hc.has ht _ _⟩

theorem Run.grows (hd : d.graph.Numbered) (hx : d.graph.Has x) (h : Run m x c d d') :
    d'.graph.Numbered ∧ Grows c d d' := by
  induction h with
  | refl => exact ⟨hd, Grows.refl c d⟩
  | step _ hm hn ih =>
    obtain ⟨h₁, h₂⟩ := hm.grows ih.1 (ih.2.has hx)
    exact ⟨h₁, ih.2.trans h₂ hn⟩

theorem Run.one (h : Move m x c d d') : Run m x c d d' := .step .refl h (.inl rfl)

theorem Run.trans (hd : d.graph.Numbered) (hx : d.graph.Has x) (h₁ : Run m x c d d₁)
    (h₂ : Run m x n d₁ d') (hn : n = c ∨ ¬ d.graph.Has n) : Run m x c d d' := by
  induction h₂ with
  | refl => exact h₁
  | step _ hm hk ih =>
    refine .step ih hm ?_
    rcases hk with rfl | hk
    · exact hn
    · exact .inr fun h => hk ((h₁.grows hd hx).2.has h)

end

end Workbench.Flow
