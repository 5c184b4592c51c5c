import Workbench.Proofs.Flow.Growth

/-!
# Walks through a flow graph

A walk logs the labels of the blocks, calls, forks and exits that it passes. The logs with which
walks may arrive at the nodes of a graph are bounded by markings: sets of logs, one for each
node, such that along every edge a log of its source, with the target appended, is a log of its
target. The walks from one node make up the least marking with the log of that node.
-/

namespace Workbench.Flow

/-! ## Logs and walks -/

def NodeKind.logged : NodeKind → Bool
  | .block | .call | .fork | .exit => true
  | .join | .virtual => false

def Node.log (n : Node) : List String := if n.kind.logged then [n.label] else []

/-- A walk from one node to another; the list holds the nodes before the last. -/
inductive Graph.Walk (g : Graph) (s : Node) : List Node → Node → Prop
  | start : Walk g s [] s
  | step {p u v} : Walk g s p u → g.Has v → g.Linked u.id v.id → Walk g s (p ++ [u]) v

/-- What a walk logs before its last node. -/
def logOf (p : List Node) : List String := p.flatMap Node.log

def Node.Stops (n : Node) : Prop := n.kind = .exit ∧ n.label = "panic!"

/-! ## Markings -/

abbrev Marking := Node → List String → Prop

/-- The logs follow the edges, and where the program ends they are among those expected there. -/
structure Marked (A : Marking) (P : List String → Prop) (g : Graph) : Prop where
  edge : ∀ {u v}, g.Has u → g.Has v → g.Linked u.id v.id → ∀ {q}, A u q → A v (q ++ v.log)
  stop : ∀ {n}, g.Has n → n.Stops → ∀ {q}, A n q → P q

def Marking.set (A : Marking) (n : Node) (S : List String → Prop) : Marking :=
  fun k => if k.id = n.id then S else A k

theorem Marking.set_self (A : Marking) (n : Node) (S : List String → Prop) :
    A.set n S n = S := if_pos rfl

theorem Marking.set_of_ne (A : Marking) {k n : Node} (S : List String → Prop)
    (h : k.id ≠ n.id) : A.set n S k = A k := if_neg h

def Agrees (d : Draft) (A A' : Marking) : Prop := ∀ n, d.graph.Has n → A' n = A n

structure Stroke where
  source : Node
  target : Node
  kind : EdgeKind
  label : String

def Draft.withEdges (d : Draft) (l : List Stroke) : Draft :=
  l.foldl (fun d s => d.withEdge s.source s.target s.kind s.label) d

structure Grounded (x : Node) (d : Draft) : Prop where
  numbered : d.graph.Numbered
  exit : d.exit = some x
  has_exit : d.graph.Has x
  loops : ∀ l ∈ d.loops, d.graph.Has l.header ∧ d.graph.Has l.exit

section
variable {x c : Node} {d d' : Draft} {A : Marking} {P : List String → Prop} {kind : NodeKind}
  {label : Label}

theorem Marked.mono {g g' : Graph} (h : Marked A P g') (hh : ∀ n, g.Has n → g'.Has n)
    (hl : ∀ u v, g.Linked u v → g'.Linked u v) : Marked A P g where
  edge := fun hu hv he => h.edge (hh _ hu) (hh _ hv) (hl _ _ he)
  stop := fun hn => h.stop (hh _ hn)

/-! ## One more node -/

theorem Grounded.withNode (h : Grounded x d) (kind : NodeKind) (label : Label) :
    Grounded x (d.withNode kind label) where
  numbered := h.numbered.addNode _ _ _
  exit := h.exit
  has_exit := (Draft.has_withNode h.numbered).2 (.inl h.has_exit)
  loops := fun l hl => ⟨(Draft.has_withNode h.numbered).2 (.inl (h.loops l hl).1),
    (Draft.has_withNode h.numbered).2 (.inl (h.loops l hl).2)⟩

theorem agrees_set (hd : d.graph.Numbered) (A : Marking) (S : List String → Prop) :
    Agrees d A (A.set (d.fresh kind label) S) :=
  fun _ hn => A.set_of_ne S (hd.fresh_id_ne hn)

theorem Marked.withNode (h : Marked A P d.graph) (hd : d.graph.Numbered)
    (S : List String → Prop) (hs : (d.fresh kind label).Stops → ∀ q, S q → P q) :
    Marked (A.set (d.fresh kind label) S) P (d.withNode kind label).graph where
  edge := by
    intro u v hu hv he q hq
    rw [Draft.linked_withNode hd] at he
    rcases (Draft.has_withNode hd).1 hu with hu | rfl
    · rcases (Draft.has_withNode hd).1 hv with hv | rfl
      · rw [agrees_set hd A S u hu] at hq
        rw [agrees_set hd A S v hv]
        exact h.edge hu hv he hq
      · exact absurd he (Draft.not_linked_fresh hd _)
    · exact absurd he (Graph.not_linked_of_outgoing_eq_nil (Draft.outgoing_fresh hd) _)
  stop := by
    intro n hn hstop q hq
    rcases (Draft.has_withNode hd).1 hn with hn | rfl
    · rw [agrees_set hd A S n hn] at hq
      exact h.stop hn hstop hq
    · rw [A.set_self] at hq
      exact hs hstop q hq

/-! ## More edges -/

theorem Marked.withEdge (h : Marked A P d.graph) (hd : d.graph.Numbered) {u v : Node}
    {k : EdgeKind} {l : String} (hu : d.graph.Has u) (hv : d.graph.Has v)
    (he : ∀ q, A u q → A v (q ++ v.log)) : Marked A P (d.withEdge u v k l).graph where
  edge := by
    intro a b ha hb hab q hq
    rw [Draft.has_withEdge hu hv] at ha hb
    rcases Draft.linked_withEdge.1 hab with hab | ⟨hau, hbv⟩
    · exact h.edge ha hb hab hq
    · rw [hd.eq_of_id ha hu hau] at hq
      rw [hd.eq_of_id hb hv hbv]
      exact he q hq
  stop := by
    intro n hn
    rw [Draft.has_withEdge hu hv] at hn
    exact h.stop hn

theorem Grounded.withEdge (h : Grounded x d) {u v : Node} {k : EdgeKind} {l : String}
    (hu : d.graph.Has u) (hv : d.graph.Has v) : Grounded x (d.withEdge u v k l) := by
  have hh : ∀ {n}, (d.withEdge u v k l).graph.Has n ↔ d.graph.Has n := Draft.has_withEdge hu hv
  exact ⟨Draft.numbered_withEdge h.numbered hu hv, h.exit, hh.2 h.has_exit,
    fun k hk => ⟨hh.2 (h.loops k hk).1, hh.2 (h.loops k hk).2⟩⟩

section
variable {l : List Stroke} (hl : ∀ s ∈ l, d.graph.Has s.source ∧ d.graph.Has s.target)
include hl

theorem Draft.has_withEdges {n : Node} : (d.withEdges l).graph.Has n ↔ d.graph.Has n := by
  induction l generalizing d with
  | nil => rfl
  | cons s l ih =>
    obtain ⟨⟨hs, ht⟩, hl⟩ := List.forall_mem_cons.1 hl
    have hh : ∀ {n}, (d.withEdge s.source s.target s.kind s.label).graph.Has n ↔ d.graph.Has n :=
      Draft.has_withEdge hs ht
    exact (ih fun k hk => ⟨hh.2 (hl k hk).1, hh.2 (hl k hk).2⟩).trans hh

theorem Draft.entry_withEdges : (d.withEdges l).graph.entry = d.graph.entry := by
  induction l generalizing d with
  | nil => rfl
  | cons s l ih =>
    obtain ⟨⟨hs, ht⟩, hl⟩ := List.forall_mem_cons.1 hl
    have hh : ∀ {n}, (d.withEdge s.source s.target s.kind s.label).graph.Has n ↔ d.graph.Has n :=
      Draft.has_withEdge hs ht
    exact (ih fun k hk => ⟨hh.2 (hl k hk).1, hh.2 (hl k hk).2⟩).trans (Draft.entry_withEdge hs ht)

theorem Grounded.withEdges (h : Grounded x d) : Grounded x (d.withEdges l) := by
  induction l generalizing d with
  | nil => exact h
  | cons s l ih =>
    obtain ⟨⟨hs, ht⟩, hl⟩ := List.forall_mem_cons.1 hl
    have hh : ∀ {n}, (d.withEdge s.source s.target s.kind s.label).graph.Has n ↔ d.graph.Has n :=
      Draft.has_withEdge hs ht
    exact ih (fun k hk => ⟨hh.2 (hl k hk).1, hh.2 (hl k hk).2⟩) (h.withEdge hs ht)

theorem Marked.withEdges (h : Marked A P d.graph) (hd : d.graph.Numbered)
    (he : ∀ s ∈ l, ∀ q, A s.source q → A s.target (q ++ s.target.log)) :
    Marked A P (d.withEdges l).graph := by
  induction l generalizing d with
  | nil => exact h
  | cons s l ih =>
    obtain ⟨⟨hs, ht⟩, hl⟩ := List.forall_mem_cons.1 hl
    obtain ⟨he₁, he⟩ := List.forall_mem_cons.1 he
    have hh : ∀ {n}, (d.withEdge s.source s.target s.kind s.label).graph.Has n ↔ d.graph.Has n :=
      Draft.has_withEdge hs ht
    exact ih (fun k hk => ⟨hh.2 (hl k hk).1, hh.2 (hl k hk).2⟩) (h.withEdge hd hs ht he₁)
      (Draft.numbered_withEdge hd hs ht) he

end

theorem Draft.linked_withEdges {l : List Stroke} {u v : String} :
    (d.withEdges l).graph.Linked u v ↔
      d.graph.Linked u v ∨ ∃ s ∈ l, u = s.source.id ∧ v = s.target.id := by
  induction l generalizing d with
  | nil => simp [Draft.withEdges]
  | cons s l ih =>
    refine ih.trans ?_
    simp only [Draft.linked_withEdge, List.mem_cons, exists_eq_or_imp, or_assoc]

theorem Draft.loops_withEdges (d : Draft) (l : List Stroke) : (d.withEdges l).loops = d.loops := by
  induction l generalizing d with
  | nil => rfl
  | cons s l ih => exact ih _

end

def strokesTo (v : Node) (kind : EdgeKind) (label : String) (l : List Node) : List Stroke :=
  l.map fun n => ⟨n, v, kind, label⟩

theorem mem_strokesTo {s : Stroke} {v : Node} {kind : EdgeKind} {label : String} {l : List Node} :
    s ∈ strokesTo v kind label l ↔ ∃ n ∈ l, s = ⟨n, v, kind, label⟩ := by
  simp only [strokesTo, List.mem_map, eq_comm]

theorem map_source_strokesTo (v : Node) (kind : EdgeKind) (label : String) (l : List Node) :
    (strokesTo v kind label l).map Stroke.source = l := by
  rw [strokesTo, List.map_map]
  exact List.map_id l

theorem target_strokesTo {s : Stroke} {v : Node} {kind : EdgeKind} {label : String} {l : List Node}
    (h : s ∈ strokesTo v kind label l) : s.target = v := by
  obtain ⟨n, -, rfl⟩ := mem_strokesTo.1 h
  rfl

def strokesOf (u v : Node) (l : List (EdgeKind × String)) : List Stroke :=
  l.map fun p => ⟨u, v, p.1, p.2⟩

theorem mem_strokesOf {s : Stroke} {u v : Node} {l : List (EdgeKind × String)} :
    s ∈ strokesOf u v l ↔ ∃ p ∈ l, s = ⟨u, v, p.1, p.2⟩ := by
  simp only [strokesOf, List.mem_map, eq_comm]

theorem Draft.joined_eq_withEdges (d : Draft) (l : List Node) (v : Node) :
    d.joined l v = d.withEdges (strokesTo v .seq "" l) := by
  simp only [Draft.joined, Draft.withEdges, strokesTo, List.foldl_map]

theorem Draft.withEdges_append (d : Draft) (l l' : List Stroke) :
    d.withEdges (l ++ l') = (d.withEdges l).withEdges l' :=
  List.foldl_append ..

/-! ## Larger drafts -/

structure Extends (x : Node) (d d' : Draft) : Prop where
  grounded : Grounded x d'
  entry : d'.graph.entry = d.graph.entry
  has : ∀ n, d.graph.Has n → d'.graph.Has n
  linked : ∀ u v, d.graph.Linked u v → d'.graph.Linked u v

namespace Extends

variable {x c : Node} {d d₁ d' : Draft} {A : Marking} {P : List String → Prop}

theorem refl (hg : Grounded x d) : Extends x d d := ⟨hg, rfl, fun _ h => h, fun _ _ h => h⟩

theorem trans (h₁ : Extends x d d₁) (h₂ : Extends x d₁ d') : Extends x d d' where
  grounded := h₂.grounded
  entry := h₂.entry.trans h₁.entry
  has := fun n hn => h₂.has n (h₁.has n hn)
  linked := fun u v h => h₂.linked u v (h₁.linked u v h)

theorem marked (h : Extends x d d') (hA : Marked A P d'.graph) : Marked A P d.graph :=
  hA.mono h.has h.linked

theorem withNode (hg : Grounded x d) (kind : NodeKind) (label : Label) :
    Extends x d (d.withNode kind label) where
  grounded := hg.withNode kind label
  entry := Draft.entry_withNode hg.numbered
  has := fun _ hn => (Draft.has_withNode hg.numbered).2 (.inl hn)
  linked := fun _ _ => (Draft.linked_withNode hg.numbered).2

theorem withEdge (hg : Grounded x d) {u v : Node} (hu : d.graph.Has u) (hv : d.graph.Has v)
    (kind : EdgeKind) (label : String) : Extends x d (d.withEdge u v kind label) where
  grounded := hg.withEdge hu hv
  entry := Draft.entry_withEdge hu hv
  has := fun _ hn => (Draft.has_withEdge hu hv).2 hn
  linked := fun _ _ h => Draft.linked_withEdge.2 (.inl h)

theorem withEdges (hg : Grounded x d) {l : List Stroke}
    (hl : ∀ s ∈ l, d.graph.Has s.source ∧ d.graph.Has s.target) : Extends x d (d.withEdges l) where
  grounded := hg.withEdges hl
  entry := Draft.entry_withEdges hl
  has := fun _ hn => (Draft.has_withEdges hl).2 hn
  linked := fun _ _ h => Draft.linked_withEdges.2 (.inl h)

theorem grown (hg : Grounded x d) (hc : d.graph.Has c) (kind : NodeKind) (label : Label)
    (edge : EdgeKind) (edgeLabel : String) : Extends x d (d.grown c kind label edge edgeLabel) :=
  (withNode hg kind label).trans (withEdge (hg.withNode kind label)
    ((Draft.has_withNode hg.numbered).2 (.inl hc)) (Draft.has_fresh_withNode hg.numbered) _ _)

theorem withLoops (h : Extends x d d') {loops : List Loop}
    (hl : ∀ l ∈ loops, d'.graph.Has l.header ∧ d'.graph.Has l.exit) :
    Extends x d (d'.withLoops loops) where
  grounded := ⟨h.grounded.numbered, h.grounded.exit, h.grounded.has_exit, hl⟩
  entry := h.entry
  has := h.has
  linked := h.linked

end Extends

/-! ## Walks and markings -/

section
variable {g : Graph} {A : Marking} {P : List String → Prop} {s n : Node} {p : List Node}

theorem Graph.Walk.marked (h : g.Walk s p n) (hA : Marked A P g) (hs : g.Has s)
    (hstart : A s s.log) : g.Has n ∧ A n (logOf p ++ n.log) := by
  induction h with
  | start => exact ⟨hs, hstart⟩
  | step _ hv hlink ih =>
    refine ⟨hv, ?_⟩
    have hq := hA.edge ih.1 hv hlink ih.2
    simpa [logOf] using hq

def Graph.arrived (g : Graph) (s : Node) : Marking :=
  fun n q => ∃ p, g.Walk s p n ∧ q = logOf p ++ n.log

theorem Graph.marked_arrived (g : Graph) (s : Node) :
    Marked (g.arrived s) (fun q => ∃ n, g.Has n ∧ n.Stops ∧ g.arrived s n q) g where
  edge := by
    rintro u v - hv hlink q ⟨p, hp, rfl⟩
    exact ⟨p ++ [u], .step hp hv hlink, by simp [logOf]⟩
  stop := fun hn hstop _ hq => ⟨_, hn, hstop, hq⟩

end

end Workbench.Flow
