import Workbench.Flow.Store
import Workbench.Proofs.Flow.Legibility

/-!
# What graph stores keep

However graphs are made, filled and merged into each other, every vertex holds the node of its name
and every edge runs between such vertices. A name is a kind and a number, which the counter has
passed, or it has a scope in front; so the name of the next node is free, whatever the scopes were.
-/

namespace Workbench.Flow

namespace Graph

/-! ## Settled graphs -/

/-- A filled graph whose own numbers go up to the counter; all other names have a scope. -/
structure Settled (g : Graph) : Prop extends Filled g where
  named : ∀ id ∈ g.ids, ∃ k i, id = nodeId k i ∧ i ≤ g.counter ∨ ∃ s, id = scopedId s (nodeId k i)

section
variable {g h : Graph} {n : Node} {e : Edge} {id s : String}

theorem settled_empty (name : String) : (empty name).Settled :=
  ⟨(tidy_empty name).toFilled, by simp [empty, ids]⟩

/-- A name that is still to be given out is free: its number is too high for a name of its own, and it
has too few low lines for a name with a scope. -/
theorem Settled.nodeId_not_mem (hg : g.Settled) (kind : NodeKind) {i : Nat} (hi : g.counter < i) :
    nodeId kind i ∉ g.ids := by
  intro h
  obtain ⟨k, j, ⟨hid, hj⟩ | ⟨s, hid⟩⟩ := hg.named _ h
  · obtain ⟨-, rfl⟩ := nodeId_inj hid
    omega
  · exact nodeId_ne_scopedId hid

theorem Settled.nextId_not_mem (hg : g.Settled) (kind : NodeKind) : g.nextId kind ∉ g.ids :=
  hg.nodeId_not_mem kind (Nat.lt_succ_self _)

theorem Settled.tagged (hg : g.Settled) (hn : g.Has n) : ∃ k i, Tagged k i n.id := by
  obtain ⟨k, i, ⟨hid, -⟩ | hid⟩ := hg.named _ (mem_ids_of_has hn)
  · exact ⟨k, i, .inl hid⟩
  · exact ⟨k, i, .inr hid⟩

/-! ## Single changes -/

theorem Settled.putScoped (hg : g.Settled) {k : NodeKind} {i : Nat} (hn : Tagged k i n.id)
    (s : String) : (g.put (n.scoped s)).Settled where
  toFilled := hg.toFilled.put _
  named := by
    intro id hid
    rcases mem_ids_put.1 hid with hid | rfl
    · rw [counter_put]
      exact hg.named id hid
    · refine ⟨k, i, .inr ?_⟩
      rcases hn with hn | ⟨t, hn⟩
      · exact ⟨s, congrArg (scopedId s) hn⟩
      · exact ⟨scopedId s t, (congrArg (scopedId s) hn).trans (scopedId_scopedId s t _)⟩

theorem addNode_of_not_mem {kind : NodeKind} (h : g.nextId kind ∉ g.ids) (label : Label)
    (description : Value) : (g.addNode kind label description).2 =
      { g with
        counter := g.counter + 1
        vertices := g.vertices ++
          [⟨g.nextId kind, some ⟨g.nextId kind, kind, label.text, label.mark, description, none⟩⟩] } := by
  have hnew : ¬ (g.vertices.any fun v => v.id == g.nextId kind) = true := by
    rw [any_id_iff]
    exact h
  simp only [addNode, put]
  rw [if_neg hnew]

theorem Settled.addNode_vertices (hg : g.Settled) (kind : NodeKind) (label : Label)
    (description : Value) : (g.addNode kind label description).2.vertices =
      g.vertices ++
        [⟨g.nextId kind, some ⟨g.nextId kind, kind, label.text, label.mark, description, none⟩⟩] := by
  rw [addNode_of_not_mem (hg.nextId_not_mem kind)]

theorem Settled.addNode (hg : g.Settled) (kind : NodeKind) (label : Label) (description : Value) :
    (g.addNode kind label description).2.Settled where
  toFilled :=
    Filled.put (g := { g with counter := g.counter + 1 })
      ⟨hg.vertex, hg.nodup, hg.source, hg.target⟩ _
  named := by
    intro id hid
    have hcounter : (g.addNode kind label description).2.counter = g.counter + 1 := counter_put _ _
    rw [hcounter]
    rcases mem_ids_put.1 hid with hid | rfl
    · obtain ⟨k, i, ⟨hid, hi⟩ | hid⟩ := hg.named id hid
      · exact ⟨k, i, .inl ⟨hid, Nat.le_succ_of_le hi⟩⟩
      · exact ⟨k, i, .inr hid⟩
    · exact ⟨kind, g.counter + 1, .inl ⟨rfl, Nat.le_refl _⟩⟩

theorem Settled.addEdge (hg : g.Settled) (hs : e.source ∈ g.ids) (ht : e.target ∈ g.ids) :
    (g.addEdge e).Settled where
  toFilled := hg.toFilled.addEdge hs ht
  named := by
    rw [ids, vertices_addEdge hs ht, counter_addEdge]
    exact hg.named

theorem Settled.setEntry (hg : g.Settled) (id : String) : (g.setEntry id).Settled :=
  ⟨⟨hg.vertex, hg.nodup, hg.source, hg.target⟩, hg.named⟩

/-! ## Merging -/

theorem Settled.puts (hg : g.Settled) (s : String) (l : List Node)
    (hl : ∀ n ∈ l, ∃ k i, Tagged k i n.id) :
    (l.foldl (fun g n => g.put (n.scoped s)) g).Settled := by
  induction l generalizing g with
  | nil => exact hg
  | cons n l ih =>
    obtain ⟨k, i, hn⟩ := hl n List.mem_cons_self
    exact ih (hg.putScoped hn s) fun m hm => hl m (List.mem_cons_of_mem n hm)

theorem Settled.addEdges (hg : g.Settled) (l : List Edge)
    (hl : ∀ e ∈ l, e.source ∈ g.ids ∧ e.target ∈ g.ids) : (l.foldl Graph.addEdge g).Settled := by
  induction l generalizing g with
  | nil => exact hg
  | cons e l ih =>
    obtain ⟨hs, ht⟩ := hl e List.mem_cons_self
    refine ih (hg.addEdge hs ht) fun x hx => ?_
    rw [ids, vertices_addEdge hs ht]
    exact hl x (List.mem_cons_of_mem e hx)

theorem Settled.merge (hg : g.Settled) (hh : h.Settled) (s : String) : (g.merge h s).2.Settled := by
  have hp := hg.puts s h.content fun n hn => hh.tagged (hh.has_iff.2 hn)
  have ht := hp.addEdges (h.arranged.map (scopedEdge s)) fun x hx => by
    obtain ⟨e, he, rfl⟩ := List.mem_map.1 hx
    exact ⟨hh.mem_ids_copied (hh.source e (mem_arranged_of he)) g s,
      hh.mem_ids_copied (hh.target e (mem_arranged_of he)) g s⟩
  rwa [List.foldl_map, ← hh.merge_eq g s] at ht

/-- A graph that is merged into itself is settled also where the merging is given up. -/
theorem Settled.mergeSelf (hg : g.Settled) (s : String) : (g.mergeSelf s).2.Settled := by
  have hgo : ∀ (l : List String) (g : Graph), g.Settled → (mergeSelf.go s l g).2.Settled := by
    intro l
    induction l with
    | nil => exact fun g hg => hg
    | cons id l ih =>
      intro g hg
      unfold mergeSelf.go
      split
      · exact hg
      next n hn =>
        obtain ⟨k, i, hi⟩ := hg.tagged (hg.node?_eq_some_iff.1 hn).1
        have hput := hg.putScoped hi s
        dsimp only
        split
        · exact ih _ hput
        · exact hput
  exact hgo _ g hg

/-! ## Reading -/

/-- What can be relied on in a graph. -/
structure Intact (g : Graph) : Prop where
  -- a node stands at the vertex of its name
  keys : ∀ v ∈ g.vertices, ∃ n : Node, v.node? = some n ∧ n.id = v.id
  unique : g.ids.Nodup
  ends : ∀ e ∈ g.edges, (∃ n, g.node e.source = .ok n) ∧ ∃ n, g.node e.target = .ok n
  readable : (∃ l, g.nodes = .ok l) ∧ (∃ l, g.arrows = .ok l) ∧ (∃ s, g.lisp = .ok s) ∧
    ∃ s, g.dot = .ok s
  -- the next node finds its name free and comes in behind all others
  next : ∀ kind label description, g.vertex? (g.nextId kind) = none ∧
    (g.addNode kind label description).2.vertices =
      g.vertices ++
        [⟨g.nextId kind, some ⟨g.nextId kind, kind, label.text, label.mark, description, none⟩⟩]

theorem Filled.node_of_mem (hg : g.Filled) (hid : id ∈ g.ids) : ∃ n, g.node id = .ok n := by
  obtain ⟨n, hn⟩ := hg.exists_has hid
  exact ⟨n, by rw [node, hg.node?_eq_some_iff.2 hn]⟩

theorem Filled.readable (hg : g.Filled) : (∃ l, g.nodes = .ok l) ∧ (∃ l, g.arrows = .ok l) ∧
    (∃ s, g.lisp = .ok s) ∧ ∃ s, g.dot = .ok s := by
  obtain ⟨as, has, -⟩ := hg.arrows_eq
  have hlisp : ∃ s, g.lisp = .ok s := by
    rw [lisp, hg.nodes_eq, has]
    exact ⟨_, rfl⟩
  have hdot : ∃ s, g.dot = .ok s := by
    rw [dot, hg.nodes_eq, has]
    exact ⟨_, rfl⟩
  exact ⟨⟨_, hg.nodes_eq⟩, ⟨as, has⟩, hlisp, hdot⟩

theorem Settled.intact (hg : g.Settled) : g.Intact where
  keys := by
    intro v hv
    obtain ⟨n, rfl⟩ := hg.vertex v hv
    exact ⟨n, rfl, rfl⟩
  unique := hg.nodup
  ends := fun e he => ⟨hg.node_of_mem (hg.source e he), hg.node_of_mem (hg.target e he)⟩
  readable := hg.toFilled.readable
  next := by
    intro kind label description
    refine ⟨?_, hg.addNode_vertices kind label description⟩
    rw [vertex?, List.find?_eq_none]
    intro v hv hid
    exact hg.nextId_not_mem kind (beq_iff_eq.1 hid ▸ List.mem_map_of_mem hv)

end

end Graph

namespace Store

/-! ## Stores -/

section
variable {s : Store} {slot : String} {g : Graph}

theorem graph_setGraph (s : Store) (slot other : String) (g : Graph) :
    (s.setGraph slot g).graph other = if other = slot then .ok g else s.graph other := by
  -- a replaced entry keeps its slot
  have hslot : ∀ p : String × Graph, ((if p.1 == slot then (slot, g) else p).1 == other) =
      (p.1 == other) := by
    intro p
    by_cases hp : p.1 = slot <;> simp [hp]
  unfold setGraph
  split
  next h =>
    simp only [graph, List.find?_map, Function.comp_def, hslot]
    cases hf : s.slots.find? fun p => p.1 == other with
    | none =>
      have hne : other ≠ slot := by
        rintro rfl
        obtain ⟨p, hp, he⟩ := List.any_eq_true.1 h
        exact List.find?_eq_none.1 hf p hp he
      simp [hne]
    | some p =>
      have hp : p.1 = other := by simpa using List.find?_some hf
      by_cases ho : other = slot <;> simp [hp, ho]
  next h =>
    simp only [graph, List.find?_append]
    by_cases ho : other = slot
    · subst ho
      have hnone : s.slots.find? (fun p => p.1 == other) = none :=
        List.find?_eq_none.2 fun p hp he => h (List.any_eq_true.2 ⟨p, hp, he⟩)
      simp [hnone]
    · have hne : ¬ slot = other := fun e => ho e.symm
      simp [ho, hne]

/-- All graphs of the store are settled. -/
def Settled (s : Store) : Prop := ∀ slot g, s.graph slot = .ok g → g.Settled

theorem settled_nothing : empty.Settled := by
  intro slot g h
  cases h

theorem Settled.setGraph (hs : s.Settled) (hg : g.Settled) : (s.setGraph slot g).Settled := by
  intro other g' h
  rw [graph_setGraph] at h
  split at h
  · exact Except.ok.inj h ▸ hg
  · exact hs other g' h

theorem Settled.resolve_eq (hs : s.Settled) {r : NodeRef} {id : String}
    (h : s.resolve r = .ok id) : id = r.id := by
  unfold resolve at h
  split at h
  · exact (Except.ok.inj h).symm
  · split at h
    · cases h
    next g hg =>
      unfold Graph.node at h
      cases hn : g.node? r.id with
      | none =>
        rw [hn] at h
        cases h
      | some n =>
        rw [hn] at h
        rw [← Except.ok.inj h]
        exact ((hs r.slot g hg).node?_eq_some_iff.1 hn).2

/-! ## Operations -/

def fair (s : Store) (slot : String) : Op → Bool
  | .edge source target _ _ =>
    (s.graph slot).toOption.all fun g => g.ids.contains source.id && g.ids.contains target.id
  | _ => true

theorem ends_of_fair {source target : NodeRef} {kind : EdgeKind} {label : String}
    (h : s.fair slot (.edge source target kind label)) (hg : s.graph slot = .ok g) :
    source.id ∈ g.ids ∧ target.id ∈ g.ids := by
  unfold fair at h
  rw [hg] at h
  simpa [Except.toOption] using h

theorem step_merge {other scope : String} {h : Graph} (hne : other ≠ slot)
    (hg : s.graph slot = .ok g) (hh : s.graph other = .ok h) :
    s.step slot (.merge other scope) =
      (lifted ((g.merge h scope).1.map fun _ => .nothing), s.setGraph slot (g.merge h scope).2) := by
  simp only [step, hg, if_neg hne, hh]

theorem Settled.step (hs : s.Settled) {op : Op} (hop : s.fair slot op) :
    (s.step slot op).2.Settled := by
  cases hg : s.graph slot with
  | error f =>
    cases op with
    | create name => exact hs.setGraph (Graph.settled_empty name)
    | _ =>
      simp only [Store.step, hg]
      exact hs
  | ok g =>
    have hgs := hs slot g hg
    cases op with
    | create name => exact hs.setGraph (Graph.settled_empty name)
    | node kind label description =>
      simp only [Store.step, hg]
      exact hs.setGraph (hgs.addNode kind label description)
    | edge source target kind label =>
      simp only [Store.step, hg]
      split
      next u v hu hv =>
        obtain ⟨hu', hv'⟩ := ends_of_fair hop hg
        rw [← hs.resolve_eq hu] at hu'
        rw [← hs.resolve_eq hv] at hv'
        exact hs.setGraph (hgs.addEdge hu' hv')
      · exact hs
      · exact hs
    | entry ref =>
      simp only [Store.step, hg]
      split
      · exact hs.setGraph (hgs.setEntry _)
      · exact hs
    | merge other scope =>
      by_cases ho : other = slot
      · simp only [Store.step, hg, if_pos ho]
        exact hs.setGraph (hgs.mergeSelf scope)
      · cases hh : s.graph other with
        | error f =>
          simp only [Store.step, hg, if_neg ho, hh]
          exact hs
        | ok h =>
          rw [step_merge ho hg hh]
          exact hs.setGraph (hgs.merge (hs other h hh) scope)
    | _ =>
      simp only [Store.step, hg]
      exact hs

/-! ## Runs of operations -/

def after (s : Store) : List (String × Op) → Store
  | [] => s
  | (slot, op) :: r => ((s.step slot op).2).after r

def fairRun (s : Store) : List (String × Op) → Bool
  | [] => true
  | (slot, op) :: r => s.fair slot op && ((s.step slot op).2).fairRun r

theorem Settled.after (hs : s.Settled) {calls : List (String × Op)} (h : s.fairRun calls) :
    (s.after calls).Settled := by
  induction calls generalizing s with
  | nil => exact hs
  | cons call calls ih =>
    obtain ⟨hop, hrest⟩ := Bool.and_eq_true_iff.1 h
    exact ih (hs.step hop) hrest

end

/-- After any operations that draw edges between nodes of one graph, every graph is intact. Merging
one into another goes through; it leaves the graph that is copied as it was, and the counter and the
entry of the other. -/
theorem after_intact {calls : List (String × Op)} (hcalls : empty.fairRun calls) :
    let s := empty.after calls
    (∀ slot g, s.graph slot = .ok g → g.Intact) ∧
      ∀ slot other g h scope, other ≠ slot → s.graph slot = .ok g → s.graph other = .ok h →
        ∃ s' g', s.step slot (.merge other scope) = (.ok .nothing, s') ∧
          s'.graph other = .ok h ∧ s'.graph slot = .ok g' ∧
          g'.counter = g.counter ∧ g'.entry = g.entry := by
  intro s
  have hs : s.Settled := settled_nothing.after hcalls
  refine ⟨fun slot g hg => (hs slot g hg).intact, ?_⟩
  intro slot other g h scope ho hg hh
  have hmargin := Graph.margin_merge g h scope
  refine ⟨s.setGraph slot (g.merge h scope).2, (g.merge h scope).2, ?_, ?_, ?_, ?_, ?_⟩
  · rw [step_merge ho hg hh, (hs other h hh).merge_ok g scope]
    rfl
  · rw [graph_setGraph, if_neg ho, hh]
  · rw [graph_setGraph, if_pos rfl]
  · exact congrArg (fun m => m.2.2) hmargin
  · exact congrArg (fun m => m.2.1) hmargin

/-- Three graphs, each merged into the next, under scopes that look like names of nodes. -/
def nestedMerges : List (String × Op) :=
  [("a", .create "a"), ("a", .node .block "x" (.str "")), ("a", .node .exit "y" (.str "")),
   ("a", .edge ⟨"a", "block_1"⟩ ⟨"a", "exit_2"⟩ .seq ""),
   ("b", .create "b"), ("b", .merge "a" "block"), ("b", .node .block "z" (.str "")),
   ("c", .create "c"), ("c", .merge "b" "block_1"), ("c", .merge "a" "block_1_block"),
   ("c", .node .block "w" (.str "")),
   ("c", .edge ⟨"c", "block_1"⟩ ⟨"c", "block_1_block_exit_2"⟩ .jump "")]

theorem nestedMerges_intact : empty.fairRun nestedMerges ∧
    ∃ g, (empty.after nestedMerges).graph "c" = .ok g ∧ g.vertices.length = 4 ∧ g.Intact := by
  have h : empty.fairRun nestedMerges := by decide +kernel
  have hlen : ((empty.after nestedMerges).graph "c").toOption.map (fun g => g.vertices.length) =
      some 4 := by decide +kernel
  cases hg : (empty.after nestedMerges).graph "c" with
  | error f =>
    rw [hg] at hlen
    cases hlen
  | ok g =>
    rw [hg] at hlen
    exact ⟨h, g, rfl, Option.some.inj hlen, (after_intact h).1 "c" g hg⟩

end Store

end Workbench.Flow
