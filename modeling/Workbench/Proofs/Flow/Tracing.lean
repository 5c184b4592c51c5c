import Workbench.Proofs.Flow.Merging
import Workbench.Proofs.Flow.Yielding

/-!
# Where edges are drawn from

Every node gets a higher number than those before it, so at any time of the drawing the names that
will come in later are known. A trace tells which nodes some steps have drawn on from: a few old ones
and those that came in on the way. All else they leave as it is.
-/

namespace Workbench.Flow

/-! ## Looking up nodes -/

namespace Graph

variable {id : String} {n : Node}

theorem id_replaced (n : Node) (v : Vertex) :
    (if v.id == n.id then (⟨v.id, some n⟩ : Vertex) else v).id = v.id := by
  split <;> rfl

theorem node?_put_self (g : Graph) (n : Node) : (g.put n).node? n.id = some n := by
  unfold put node? vertex?
  split
  next h =>
    obtain ⟨v, hv⟩ := Option.isSome_iff_exists.1 (List.find?_isSome.2 (List.any_eq_true.1 h))
    have hvn : v.id = n.id := by simpa using List.find?_some hv
    simp only [List.find?_map, Function.comp_def, id_replaced, hv]
    simp [hvn]
  next h =>
    have hnone : g.vertices.find? (fun v => v.id == n.id) = none :=
      List.find?_eq_none.2 fun v hv he => h (List.any_eq_true.2 ⟨v, hv, he⟩)
    simp [List.find?_append, hnone]

theorem node?_put_of_ne (g : Graph) (h : id ≠ n.id) : (g.put n).node? id = g.node? id := by
  unfold put node? vertex?
  split
  next =>
    simp only [List.find?_map, Function.comp_def, id_replaced]
    cases hf : g.vertices.find? fun v => v.id == id with
    | none => rfl
    | some v =>
      have hv : v.id = id := by simpa using List.find?_some hf
      simp [hv, h]
  next => simp [List.find?_append, Ne.symm h]

theorem node?_touch (g : Graph) (id' : String) : (g.touch id').node? id = g.node? id := by
  unfold touch node? vertex?
  split
  next => rfl
  next =>
    rw [List.find?_append]
    cases g.vertices.find? fun v => v.id == id with
    | some v => rfl
    | none => by_cases hid : id' = id <;> simp [hid]

theorem node?_addEdge (g : Graph) (e : Edge) : (g.addEdge e).node? id = g.node? id := by
  have hboth : ((g.touch e.source).touch e.target).node? id = g.node? id :=
    (node?_touch _ _).trans (node?_touch _ _)
  unfold addEdge
  dsimp only
  split <;> exact hboth

end Graph

/-! ## Names to come -/

namespace Draft

variable {d d₁ d' : Draft} {id : String}

def Later (d : Draft) (id : String) : Prop := ∃ kind i, id = nodeId kind i ∧ d.graph.counter < i

theorem Later.mono (h : d'.Later id) (hle : d.graph.counter ≤ d'.graph.counter) : d.Later id := by
  obtain ⟨kind, i, rfl, hi⟩ := h
  exact ⟨kind, i, rfl, Nat.lt_of_le_of_lt hle hi⟩

def New (d d' : Draft) (id : String) : Prop := d.Later id ∧ ¬ d'.Later id

theorem New.left (h : New d₁ d' id) (hle : d.graph.counter ≤ d₁.graph.counter) : New d d' id :=
  ⟨h.1.mono hle, h.2⟩

theorem New.right (h : New d d₁ id) (hle : d₁.graph.counter ≤ d'.graph.counter) : New d d' id :=
  ⟨h.1, fun hl => h.2 (hl.mono hle)⟩

theorem counter_withNode (d : Draft) (kind : NodeKind) (label : Label) :
    (d.withNode kind label).graph.counter = d.graph.counter + 1 :=
  Graph.counter_put _ _

theorem counter_withEdge (d : Draft) (u v : Node) (kind : EdgeKind) (label : String) :
    (d.withEdge u v kind label).graph.counter = d.graph.counter :=
  Graph.counter_addEdge _ _

theorem later_fresh (d : Draft) (kind : NodeKind) (label : Label) : d.Later (d.fresh kind label).id :=
  ⟨kind, d.graph.counter + 1, rfl, Nat.lt_succ_self _⟩

theorem new_fresh (d : Draft) (kind : NodeKind) (label : Label) :
    New d (d.withNode kind label) (d.fresh kind label).id := by
  refine ⟨d.later_fresh kind label, ?_⟩
  rintro ⟨kind', i, hid, hi⟩
  obtain ⟨-, rfl⟩ := nodeId_inj (i := d.graph.counter + 1) hid
  rw [counter_withNode] at hi
  exact Nat.lt_irrefl _ hi

theorem node?_fresh (d : Draft) (kind : NodeKind) (label : Label) :
    (d.withNode kind label).graph.node? (d.fresh kind label).id = some (d.fresh kind label) :=
  Graph.node?_put_self _ _

theorem node?_grown (d : Draft) (c : Node) (kind : NodeKind) (label : Label) (edge : EdgeKind)
    (edgeLabel : String) : (d.grown c kind label edge edgeLabel).graph.node? (d.fresh kind label).id =
      some (d.fresh kind label) :=
  (Graph.node?_addEdge _ _).trans (d.node?_fresh kind label)

end Draft

/-! ## Traces -/

open Draft (New)

/-- Steps from one draft to another that draw on from names in `A` and from new nodes only. The known
nodes are some of these. -/
structure Traced (A : String → Prop) (d : Draft) (known : List Node) (d' : Draft) : Prop where
  counter : d.graph.counter ≤ d'.graph.counter
  nodes : ∀ n : Node, ¬ d.Later n.id → d.graph.node? n.id = some n → d'.graph.node? n.id = some n
  strokes : ∃ l, d'.strokes = d.strokes ++ l ∧ ∀ e ∈ l, A e.source ∨ New d d' e.source
  known : ∀ n ∈ known, A n.id ∨ New d d' n.id

namespace Traced

variable {A B : String → Prop} {d d₁ d₂ d' : Draft} {known known' : List Node} {c n t : Node}

theorem start (h : ∀ n ∈ known, A n.id) : Traced A d known d :=
  ⟨Nat.le_refl _, fun _ _ h => h, ⟨[], by simp⟩, fun n hn => .inl (h n hn)⟩

theorem here (c : Node) (d : Draft) : Traced (· = c.id) d [c] d :=
  start fun _ hn => congrArg Node.id (List.mem_singleton.1 hn)

theorem mono (h : Traced A d known d') (hk : ∀ n ∈ known', n ∈ known) : Traced A d known' d' :=
  ⟨h.counter, h.nodes, h.strokes, fun n hn => h.known n (hk n hn)⟩

theorem forget (h : Traced A d known d') : Traced A d [] d' :=
  h.mono (by simp)

theorem weaken (h : Traced A d known d') (hA : ∀ id, A id → B id) : Traced B d known d' := by
  obtain ⟨l, hl, hsources⟩ := h.strokes
  exact ⟨h.counter, h.nodes, ⟨l, hl, fun e he => (hsources e he).imp_left (hA _)⟩,
    fun n hn => (h.known n hn).imp_left (hA _)⟩

theorem anywhere (h : Traced A d known d') (known' : List Node) :
    Traced (fun _ => True) d known' d' := by
  obtain ⟨l, hl, -⟩ := h.strokes
  exact ⟨h.counter, h.nodes, ⟨l, hl, fun _ _ => .inl trivial⟩, fun _ _ => .inl trivial⟩

theorem trans (h : Traced A d known d₁) (h' : Traced B d₁ known' d')
    (hB : ∀ id, B id → A id ∨ New d d₁ id) : Traced A d (known ++ known') d' := by
  have hold : ∀ {id}, A id ∨ New d d₁ id → A id ∨ New d d' id :=
    fun hid => hid.imp_right fun hnew => hnew.right h'.counter
  have hnew : ∀ {id}, B id ∨ New d₁ d' id → A id ∨ New d d' id := fun hid =>
    hid.elim (fun hb => hold (hB _ hb)) fun hn => .inr (hn.left h.counter)
  obtain ⟨l, hl, hsources⟩ := h.strokes
  obtain ⟨l', hl', hsources'⟩ := h'.strokes
  refine ⟨Nat.le_trans h.counter h'.counter, ?_, ⟨l ++ l', by rw [hl', hl, List.append_assoc], ?_⟩, ?_⟩
  · intro n hlater hn
    exact h'.nodes n (fun hl => hlater (hl.mono h.counter)) (h.nodes n hlater hn)
  · intro e he
    rcases List.mem_append.1 he with he | he
    · exact hold (hsources e he)
    · exact hnew (hsources' e he)
  · intro n hn
    rcases List.mem_append.1 hn with hn | hn
    · exact hold (h.known n hn)
    · exact hnew (h'.known n hn)

theorem step (h : Traced A d known d₁) (hn : n ∈ known) (h' : Traced (· = n.id) d₁ known' d') :
    Traced A d (known ++ known') d' :=
  h.trans h' fun _ hid => hid ▸ h.known n hn

/-! ## Elementary steps -/

theorem node (h : Traced A d known d₁) (kind : NodeKind) (label : Label) :
    Traced A d (known ++ [d₁.fresh kind label]) (d₁.withNode kind label) := by
  have hstep : Traced (fun _ => False) d₁ [d₁.fresh kind label] (d₁.withNode kind label) := by
    refine ⟨?_, ?_, ⟨[], (List.append_nil _).symm, nofun⟩, ?_⟩
    · rw [Draft.counter_withNode]
      exact Nat.le_succ _
    · intro n hlater hn
      have hne : n.id ≠ (d₁.fresh kind label).id := fun e => hlater (e ▸ d₁.later_fresh kind label)
      exact (Graph.node?_put_of_ne _ hne).trans hn
    · intro n hn
      rw [List.mem_singleton.1 hn]
      exact .inr (d₁.new_fresh kind label)
  exact h.trans hstep fun _ => False.elim

theorem edge (h : Traced A d known d₁) (hn : n ∈ known) (t : Node) (kind : EdgeKind) (label : String) :
    Traced A d known (d₁.withEdge n t kind label) := by
  have hstep : Traced (· = n.id) d₁ [] (d₁.withEdge n t kind label) := by
    refine ⟨Nat.le_of_eq (Draft.counter_withEdge ..).symm, fun m _ hm => ?_, ⟨[_], rfl, ?_⟩, nofun⟩
    · exact (Graph.node?_addEdge _ _).trans hm
    · intro e he
      rw [List.mem_singleton.1 he]
      exact .inl rfl
  exact (h.step hn hstep).mono fun m hm => List.mem_append_left _ hm

theorem grow (h : Traced A d known d₁) (hn : n ∈ known) (kind : NodeKind) (label : Label)
    (edge : EdgeKind) (edgeLabel : String) :
    Traced A d (known ++ [d₁.fresh kind label]) (d₁.grown n kind label edge edgeLabel) :=
  (h.node kind label).edge (List.mem_append_left _ hn) _ edge edgeLabel

theorem loops (h : Traced A d known d₁) (l : List Loop) : Traced A d known (d₁.withLoops l) :=
  ⟨h.counter, h.nodes, h.strokes, h.known⟩

theorem join (h : Traced A d known d₁) (ends : List Node) (hends : ∀ n ∈ ends, n ∈ known) (t : Node) :
    Traced A d known (d₁.joined ends t) := by
  induction ends generalizing d₁ with
  | nil => exact h
  | cons n ends ih =>
    exact ih (h.edge (hends n List.mem_cons_self) t .seq "") fun m hm =>
      hends m (List.mem_cons_of_mem n hm)

theorem jump (h : Traced A d known d₁) (hn : n ∈ known) (place : Loop → Node) (label : String) :
    Traced A d known (d₁.jumped n place label) := by
  unfold Draft.jumped
  split
  · exact h
  · exact h.edge hn _ .jump label

/-! ## Old and new names -/

theorem strokes_prefix (h : Traced A d known d') : d.strokes <+: d'.strokes := by
  obtain ⟨l, hl, -⟩ := h.strokes
  exact ⟨l, hl.symm⟩

theorem not_later (h : Traced (· = c.id) d known d') (hc : ¬ d.Later c.id) (hn : n ∈ known) :
    ¬ d'.Later n.id := by
  rcases h.known n hn with hid | hnew
  · exact fun hl => hc (hid ▸ hl.mono h.counter)
  · exact hnew.2

theorem sources (h : Traced (· = c.id) d known d') (hc : ¬ d.Later c.id)
    (hs : ∀ e ∈ d.strokes, ¬ d.Later e.source) : ∀ e ∈ d'.strokes, ¬ d'.Later e.source := by
  obtain ⟨l, hl, hsources⟩ := h.strokes
  intro e he hlater
  rw [hl] at he
  rcases List.mem_append.1 he with he | he
  · exact hs e he (hlater.mono h.counter)
  · rcases hsources e he with hid | hnew
    · exact hc (hid ▸ hlater.mono h.counter)
    · exact hnew.2 hlater

end Traced

end Workbench.Flow
