import Workbench.Proofs.Flow.Suite.Growth
import Workbench.Proofs.Flow.Braced.Growth
import Workbench.Flow.Outline
import Mathlib.Logic.Relation
import Mathlib.Data.List.Infix

/-!
# Forward flow

Without the edges that lead back to the header of a loop a flow graph has no cycles. Something leads
to every node but the entry, the end, joins, and the stubs: blocks that came in right behind a fork
and have no edges at all. All nodes but the stubs are reached from the entry, from the end or from a
join that nothing leads to. Every move keeps this.
-/

namespace Workbench.Flow

open Relation

/-! ## One more edge to a node that leads nowhere -/

section
variable {α : Type} {R R' : α → α → Prop} {u t : α}

theorem eq_or_transGen_of_sink (hR : ∀ a b, R' a b → R a b ∨ a = u ∧ b = t) (ht : ∀ b, ¬ R' t b)
    {a b : α} (h : TransGen R' a b) : b = t ∨ TransGen R a b := by
  induction h with
  | single hab =>
    rcases hR _ _ hab with hab | ⟨-, rfl⟩
    · exact .inr (.single hab)
    · exact .inl rfl
  | tail _ hbc ih =>
    rcases ih with rfl | hab
    · exact absurd hbc (ht _)
    · rcases hR _ _ hbc with hbc | ⟨-, rfl⟩
      · exact .inr (hab.tail hbc)
      · exact .inl rfl

theorem acyclic_of_sink (hR : ∀ a b, R' a b → R a b ∨ a = u ∧ b = t) (ht : ∀ b, ¬ R t b)
    (hut : u ≠ t) (h : ∀ a, ¬ TransGen R a a) : ∀ a, ¬ TransGen R' a a := by
  have ht' : ∀ b, ¬ R' t b := by
    intro b hb
    rcases hR _ _ hb with hb | ⟨hu, -⟩
    · exact ht b hb
    · exact hut hu.symm
  intro a ha
  rcases eq_or_transGen_of_sink hR ht' ha with rfl | ha'
  · obtain ⟨b, hb, -⟩ := TransGen.head'_iff.1 ha
    exact ht' b hb
  · exact h a ha'

theorem eq_of_reflTransGen_of_sink (ht : ∀ b, ¬ R t b) {b : α} (h : ReflTransGen R t b) : b = t := by
  rcases ReflTransGen.cases_head_iff.1 h with rfl | ⟨c, hc, -⟩
  · rfl
  · exact absurd hc (ht c)

end

namespace Graph

/-! ## Stubs and roots -/

def Forward (g : Graph) (u v : String) : Prop :=
  ∃ e ∈ g.edges, e.isBack = false ∧ e.source = u ∧ e.target = v

def Stub (g : Graph) (n : Node) : Prop :=
  n.kind = .block ∧ ∃ f : Node, f.kind = .fork ∧ [⟨f.id, some f⟩, ⟨n.id, some n⟩] <:+: g.vertices

def EndsInFork (g : Graph) : Prop := ∃ f : Node, f.kind = .fork ∧ [⟨f.id, some f⟩] <:+ g.vertices

def Root (g : Graph) (x s : Node) : Prop :=
  g.Has s ∧ (g.entry = some s.id ∨ s = x ∨ s.kind = .join ∧ ∀ u, ¬ g.Linked u s.id)

variable {g g' : Graph} {k n : Node}

theorem incoming_eq_nil : g.incoming n = [] ↔ ∀ u, ¬ g.Linked u n.id := by
  rw [incoming, List.filter_eq_nil_iff]
  constructor
  · rintro h u ⟨e, he, -, ht⟩
    exact h e he (by simpa using ht)
  · intro h e he ht
    exact h e.source ⟨e, he, rfl, by simpa using ht⟩

theorem outgoing_eq_nil_iff_not_linked : g.outgoing n = [] ↔ ∀ v, ¬ g.Linked n.id v := by
  rw [outgoing_eq_nil]
  constructor
  · rintro h v ⟨e, he, hs, -⟩
    exact h e he hs
  · intro h e he hs
    exact h e.target ⟨e, he, hs, rfl⟩

theorem Forward.linked {u v : String} (h : g.Forward u v) : g.Linked u v := by
  obtain ⟨e, he, -, hs, ht⟩ := h
  exact ⟨e, he, hs, ht⟩

theorem node_eq_of_vertex_eq (h : (⟨n.id, some n⟩ : Vertex) = ⟨k.id, some k⟩) : n = k := by
  simpa using congrArg Vertex.node? h

theorem Stub.has (h : g.Stub n) : g.Has n := by
  obtain ⟨-, f, -, hin⟩ := h
  exact hin.subset (by simp)

theorem stub_concat (h : g'.vertices = g.vertices ++ [⟨k.id, some k⟩]) :
    g'.Stub n ↔ g.Stub n ∨ n = k ∧ k.kind = .block ∧ g.EndsInFork := by
  unfold Stub EndsInFork
  rw [h]
  constructor
  · rintro ⟨hn, f, hf, hin⟩
    rw [List.infix_concat_iff, List.suffix_concat_iff] at hin
    rcases hin with (hnil | ⟨t, ht, hsuf⟩) | hin
    · cases hnil
    · obtain ⟨hft, hnk⟩ := List.append_inj' (show [_] ++ [_] = t ++ [_] from ht) rfl
      obtain rfl : n = k := node_eq_of_vertex_eq (List.singleton_inj.1 hnk)
      exact .inr ⟨rfl, hn, f, hf, hft ▸ hsuf⟩
    · exact .inl ⟨hn, f, hf, hin⟩
  · rintro (⟨hn, f, hf, hin⟩ | ⟨rfl, hn, f, hf, hsuf⟩)
    · exact ⟨hn, f, hf, hin.trans (List.prefix_append _ _).isInfix⟩
    · refine ⟨hn, f, hf, List.IsSuffix.isInfix ?_⟩
      exact List.suffix_concat_iff.2 (.inr ⟨[_], rfl, hsuf⟩)

theorem endsInFork_concat (h : g'.vertices = g.vertices ++ [⟨k.id, some k⟩]) :
    g'.EndsInFork ↔ k.kind = .fork := by
  unfold EndsInFork
  rw [h]
  constructor
  · rintro ⟨f, hf, hsuf⟩
    rcases List.suffix_concat_iff.1 hsuf with hnil | ⟨t, ht, -⟩
    · cases hnil
    · obtain ⟨-, hfk⟩ := List.append_inj' (show [] ++ [_] = t ++ [_] from ht) rfl
      rw [← node_eq_of_vertex_eq (List.singleton_inj.1 hfk)]
      exact hf
  · intro hk
    exact ⟨k, hk, List.suffix_append _ _⟩

end Graph

/-! ## What every move keeps -/

structure Orderly (m : Manner) (x : Node) (g : Graph) : Prop where
  numbered : g.Numbered
  entry : ∃ e, g.Has e ∧ g.entry = some e.id
  has_exit : g.Has x
  exit_kind : x.kind = .exit
  exit_sink : ∀ v, ¬ g.Linked x.id v
  acyclic : ∀ u, ¬ TransGen g.Forward u u
  sources : ∀ n, g.Has n → (∀ u, ¬ g.Linked u n.id) →
    g.entry = some n.id ∨ n = x ∨ n.kind = .join ∨ g.Stub n
  stubs : ∀ n, g.Stub n → m.dummies ∧ n.label = "Then" ∧ g.entry ≠ some n.id ∧
    ∀ u, ¬ g.Linked u n.id ∧ ¬ g.Linked n.id u
  reached : ∀ n, g.Has n → ¬ g.Stub n → ∃ s, g.Root x s ∧ ReflTransGen g.Linked s.id n.id

section
variable {m : Manner} {x c t : Node} {d d' : Draft} {kind : NodeKind} {label : Label}
  {edgeLabel : String} {edge : EdgeKind}

theorem Orderly.not_stub (h : Orderly m x d.graph) (hc : d.graph.Rooted c) : ¬ d.graph.Stub c := by
  intro hs
  obtain ⟨-, -, hentry, hfree⟩ := h.stubs c hs
  rcases hc with hk | he | ⟨u, hu⟩
  · rw [hs.1] at hk
    cases hk
  · exact hentry he
  · exact (hfree u).1 hu

theorem Orderly.ne_exit (h : Orderly m x d.graph) (hc : Footing d c) : c ≠ x :=
  fun e => hc.not_exit (e ▸ h.exit_kind)

theorem forward_withEdge {u v : String} (h : (d.withEdge c t edge edgeLabel).graph.Forward u v) :
    d.graph.Forward u v ∨
      Edge.isBack ⟨c.id, t.id, edge, edgeLabel⟩ = false ∧ u = c.id ∧ v = t.id := by
  obtain ⟨e, he, hb, rfl, rfl⟩ := h
  obtain rfl | ⟨he, -⟩ := Graph.mem_addEdge.1 he
  · exact .inr ⟨hb, rfl, rfl⟩
  · exact .inl ⟨e, he, hb, rfl, rfl⟩

theorem forward_grown (hd : d.graph.Numbered) {u v : String}
    (h : (d.grown c kind label edge edgeLabel).graph.Forward u v) :
    d.graph.Forward u v ∨ u = c.id ∧ v = (d.fresh kind label).id := by
  obtain ⟨e, he, hb, rfl, rfl⟩ := h
  rw [Draft.edges_grown hd] at he
  rcases List.mem_append.1 he with he | he
  · exact .inl ⟨e, he, hb, rfl, rfl⟩
  · rw [List.mem_singleton.1 he]
    exact .inr ⟨rfl, rfl⟩

theorem forward_withNode (hd : d.graph.Numbered) {u v : String} :
    (d.withNode kind label).graph.Forward u v ↔ d.graph.Forward u v := by
  unfold Graph.Forward
  rw [Draft.edges_withNode hd]

theorem fresh_not_linked (hd : d.graph.Numbered) (v : String) :
    ¬ d.graph.Linked (d.fresh kind label).id v :=
  Graph.not_linked_of_outgoing_eq_nil (Draft.outgoing_fresh hd) v

theorem Orderly.entry_ne_fresh (h : Orderly m x d.graph) :
    d.graph.entry ≠ some (d.fresh kind label).id := by
  obtain ⟨e, he, hid⟩ := h.entry
  rw [hid]
  exact fun hf => h.numbered.fresh_id_ne he (Option.some.inj hf)

theorem Orderly.withNode (h : Orderly m x d.graph) (hk : kind = .join ∨
    (kind = .block ∧ label.text = "Then" ∧ d.graph.EndsInFork ∧ m.dummies)) :
    Orderly m x (d.withNode kind label).graph := by
  have hd := h.numbered
  have hhas : ∀ {n}, d.graph.Has n → (d.withNode kind label).graph.Has n :=
    fun hn => (Draft.has_withNode hd).2 (.inl hn)
  have hstub : ∀ {n}, (d.withNode kind label).graph.Stub n ↔
      d.graph.Stub n ∨ n = d.fresh kind label ∧ kind = .block ∧ d.graph.EndsInFork :=
    Graph.stub_concat (Draft.vertices_withNode hd)
  have hlinked : ∀ {u v}, (d.withNode kind label).graph.Linked u v ↔ d.graph.Linked u v :=
    Draft.linked_withNode hd
  have hentry : (d.withNode kind label).graph.entry = d.graph.entry := Draft.entry_withNode hd
  refine ⟨hd.addNode _ _ _, ?_, hhas h.has_exit, h.exit_kind, ?_, ?_, ?_, ?_, ?_⟩
  · rw [hentry]
    exact h.entry.imp fun e he => ⟨hhas he.1, he.2⟩
  · exact fun v hv => h.exit_sink v (hlinked.1 hv)
  · intro u hu
    exact h.acyclic u (TransGen.mono (fun _ _ => (forward_withNode hd).1) u u hu)
  · intro n hn hfree
    rw [hentry, hstub]
    rcases (Draft.has_withNode hd).1 hn with hn | rfl
    · rcases h.sources n hn fun u hu => hfree u (hlinked.2 hu) with h | h | h | h
      · exact .inl h
      · exact .inr (.inl h)
      · exact .inr (.inr (.inl h))
      · exact .inr (.inr (.inr (.inl h)))
    · rcases hk with rfl | ⟨hb, -, hf, -⟩
      · exact .inr (.inr (.inl rfl))
      · exact .inr (.inr (.inr (.inr ⟨rfl, hb, hf⟩)))
  · intro n hn
    rw [hentry]
    rcases hstub.1 hn with hn | ⟨rfl, hb, -⟩
    · obtain ⟨hm, hl, he, hfree⟩ := h.stubs n hn
      exact ⟨hm, hl, he, fun u => ⟨fun hu => (hfree u).1 (hlinked.1 hu),
        fun hu => (hfree u).2 (hlinked.1 hu)⟩⟩
    · rcases hk with hj | ⟨-, hl, -, hm⟩
      · rw [hb] at hj
        cases hj
      · exact ⟨hm, hl, h.entry_ne_fresh, fun u =>
          ⟨fun hu => Draft.not_linked_fresh hd u (hlinked.1 hu),
            fun hu => fresh_not_linked hd u (hlinked.1 hu)⟩⟩
  · intro n hn hs
    rw [hstub, not_or] at hs
    rcases (Draft.has_withNode hd).1 hn with hn | rfl
    · obtain ⟨s, ⟨hs, hroot⟩, hreach⟩ := h.reached n hn hs.1
      refine ⟨s, ⟨hhas hs, ?_⟩, ReflTransGen.mono (fun _ _ => hlinked.2) _ _ hreach⟩
      rw [hentry]
      exact hroot.imp_right (Or.imp_right (And.imp_right fun hf u hu => hf u (hlinked.1 hu)))
    · -- a node that is no stub came in as a join, and nothing leads to it
      rcases hk with rfl | ⟨hb, -, hf, -⟩
      · exact ⟨_, ⟨hn, .inr (.inr ⟨rfl, fun u hu => Draft.not_linked_fresh hd u (hlinked.1 hu)⟩)⟩,
          .refl⟩
      · exact absurd ⟨rfl, hb, hf⟩ hs.2

/-- One more edge, from a node that is no stub to one that something leads to already, or to one
that leads nowhere. The latter may have come in with the edge. -/
theorem Orderly.extend {g g' : Graph} (h : Orderly m x g) (hd : g'.Numbered) (hc : g.Has c)
    (hcs : ¬ g.Stub c) (hcx : c ≠ x) (hts : ¬ g.Stub t)
    (hhas : ∀ {n}, g'.Has n ↔ g.Has n ∨ n = t) (hentry : g'.entry = g.entry)
    (hstub : ∀ {n}, g'.Stub n ↔ g.Stub n)
    (hlinked : ∀ {u v}, g'.Linked u v ↔ g.Linked u v ∨ u = c.id ∧ v = t.id)
    (hacyclic : ∀ u, ¬ TransGen g'.Forward u u)
    (hcase : (g.Has t ∧ ∃ u, g.Linked u t.id) ∨ t ≠ c ∧ ∀ v, ¬ g.Linked t.id v) :
    Orderly m x g' := by
  have hid : ∀ {n k}, g'.Has n → g'.Has k → n.id = k.id → n = k := fun hn hk => hd.eq_of_id hn hk
  have hc' := hhas.2 (.inl hc)
  have ht' := hhas.2 (.inr (rfl : t = t))
  refine ⟨hd, ?_, hhas.2 (.inl h.has_exit), h.exit_kind, ?_, hacyclic, ?_, ?_, ?_⟩
  · rw [hentry]
    exact h.entry.imp fun e he => ⟨hhas.2 (.inl he.1), he.2⟩
  · intro v hv
    rcases hlinked.1 hv with hv | ⟨hx, -⟩
    · exact h.exit_sink v hv
    · exact hcx (hid hc' (hhas.2 (.inl h.has_exit)) hx.symm)
  · intro n hn hfree
    rw [hentry, hstub]
    rcases hhas.1 hn with hn | rfl
    · exact h.sources n hn fun u hu => hfree u (hlinked.2 (.inl hu))
    · exact absurd (hlinked.2 (.inr ⟨rfl, rfl⟩)) (hfree c.id)
  · intro n hn
    rw [hentry]
    have hn := hstub.1 hn
    obtain ⟨hm, hl, he, hfree⟩ := h.stubs n hn
    have hn' := hhas.2 (.inl hn.has)
    refine ⟨hm, hl, he, fun u => ⟨fun hu => ?_, fun hu => ?_⟩⟩
    · rcases hlinked.1 hu with hu | ⟨-, e⟩
      · exact (hfree u).1 hu
      · exact hts (hid hn' ht' e ▸ hn)
    · rcases hlinked.1 hu with hu | ⟨e, -⟩
      · exact (hfree u).2 hu
      · exact hcs (hid hn' hc' e ▸ hn)
  · have hkeep : ∀ {s}, s ≠ t ∨ (∃ u, g.Linked u t.id) → g.Root x s → g'.Root x s := by
      rintro s hst ⟨hs, hroot⟩
      refine ⟨hhas.2 (.inl hs), ?_⟩
      rw [hentry]
      refine hroot.imp_right (Or.imp_right (And.imp_right fun hf u hu => ?_))
      rcases hlinked.1 hu with hu | ⟨-, e⟩
      · exact hf u hu
      · obtain rfl := hid (hhas.2 (.inl hs)) ht' e
        rcases hst with hst | ⟨v, hv⟩
        · exact hst rfl
        · exact hf v hv
    have hmono : ∀ {u v}, ReflTransGen g.Linked u v → ReflTransGen g'.Linked u v :=
      fun hr => ReflTransGen.mono (fun _ _ hu => hlinked.2 (.inl hu)) _ _ hr
    intro n hn hs
    rw [hstub] at hs
    rcases hcase with ⟨htg, hlink⟩ | ⟨htc, hsink⟩
    · have hn : g.Has n := (hhas.1 hn).elim (fun hn => hn) fun e => e ▸ htg
      obtain ⟨s, hroot, hreach⟩ := h.reached n hn hs
      exact ⟨s, hkeep (.inr hlink) hroot, hmono hreach⟩
    · -- from the target alone only the target was reached, so other nodes keep their roots
      have hother : ∀ {k s}, g.Has k → k ≠ t → ReflTransGen g.Linked s.id k.id → s ≠ t := by
        rintro k s hk hkt hr rfl
        exact hkt (hid (hhas.2 (.inl hk)) ht' (eq_of_reflTransGen_of_sink hsink hr))
      by_cases hnt : n = t
      · subst hnt
        obtain ⟨s, hroot, hreach⟩ := h.reached c hc hcs
        exact ⟨s, hkeep (.inl (hother hc htc.symm hreach)) hroot,
          (hmono hreach).tail (hlinked.2 (.inr ⟨rfl, rfl⟩))⟩
      · have hn := (hhas.1 hn).resolve_right hnt
        obtain ⟨s, hroot, hreach⟩ := h.reached n hn hs
        exact ⟨s, hkeep (.inl (hother hn hnt hreach)) hroot, hmono hreach⟩

theorem Orderly.grown (h : Orderly m x d.graph) (hc : Footing d c)
    (hk : kind = .block → ¬ d.graph.EndsInFork) :
    Orderly m x (d.grown c kind label edge edgeLabel).graph := by
  have hd := h.numbered
  have hnew : ¬ d.graph.Has (d.fresh kind label) := Draft.fresh_not_has hd
  refine h.extend (Draft.numbered_grown hd hc.has) hc.has (h.not_stub hc.rooted) (h.ne_exit hc)
    (fun hs => hnew hs.has) (Draft.has_grown hd hc.has)
    (Grows.grown hd hc.has kind label edge edgeLabel).entry ?_ (Draft.linked_grown hd) ?_
    (.inr ⟨fun e => hnew (e ▸ hc.has), fresh_not_linked hd⟩)
  · intro n
    rw [Graph.stub_concat (Draft.vertices_grown hd hc.has)]
    exact or_iff_left fun hn => hk hn.2.1 hn.2.2
  · exact acyclic_of_sink (fun _ _ => forward_grown hd)
      (fun v hv => fresh_not_linked hd v hv.linked) (hd.fresh_id_ne hc.has) h.acyclic

theorem Orderly.withEdge (h : Orderly m x d.graph) (hc : d.graph.Has c) (hr : d.graph.Rooted c)
    (hcx : c ≠ x) (ht : d.graph.Has t) (hk : t.kind ≠ .block)
    (hcase : Edge.isBack ⟨c.id, t.id, edge, edgeLabel⟩ = true ∧ (∃ u, d.graph.Linked u t.id) ∨
      t ≠ c ∧ d.graph.outgoing t = []) :
    Orderly m x (d.withEdge c t edge edgeLabel).graph := by
  have hd := h.numbered
  refine h.extend (Draft.numbered_withEdge hd hc ht) hc (h.not_stub hr) hcx
    (fun hs => hk hs.1) ?_ (Draft.entry_withEdge hc ht) ?_ Draft.linked_withEdge ?_ ?_
  · intro n
    rw [Draft.has_withEdge hc ht]
    exact ⟨.inl, fun hn => hn.elim (fun hn => hn) fun e => e ▸ ht⟩
  · intro n
    unfold Graph.Stub
    rw [Draft.vertices_withEdge hc ht]
  · rcases hcase with ⟨hback, -⟩ | ⟨hne, hsink⟩
    · intro u hu
      refine h.acyclic u (TransGen.mono (fun a b hab => ?_) u u hu)
      rcases forward_withEdge hab with hab | ⟨hb, -⟩
      · exact hab
      · rw [hback] at hb
        cases hb
    · refine acyclic_of_sink (fun _ _ hab => (forward_withEdge hab).imp_right And.right)
        (fun v hv => Graph.not_linked_of_outgoing_eq_nil hsink v hv.linked) (fun e => hne ?_)
        h.acyclic
      exact hd.eq_of_id ht hc e.symm
  · rcases hcase with ⟨-, hlink⟩ | ⟨hne, hsink⟩
    · exact .inl ⟨ht, hlink⟩
    · exact .inr ⟨hne, Graph.not_linked_of_outgoing_eq_nil hsink⟩

/-! ## Moves and runs -/

theorem endsInFork_grown (hd : d.graph.Numbered) (hc : d.graph.Has c) :
    (d.grown c kind label edge edgeLabel).graph.EndsInFork ↔ kind = .fork :=
  Graph.endsInFork_concat (Draft.vertices_grown hd hc)

theorem endsInFork_withNode (hd : d.graph.Numbered) :
    (d.withNode kind label).graph.EndsInFork ↔ kind = .fork :=
  Graph.endsInFork_concat (Draft.vertices_withNode hd)

theorem endsInFork_withEdge (hc : d.graph.Has c) (ht : d.graph.Has t) :
    (d.withEdge c t edge edgeLabel).graph.EndsInFork ↔ d.graph.EndsInFork := by
  unfold Graph.EndsInFork
  rw [Draft.vertices_withEdge hc ht]

theorem Orderly.fork (h : Orderly m x d.graph) (hc : Footing d c) (label : Label) :
    Orderly m x (d.grown c .fork label .seq "").graph ∧
      (d.grown c .fork label .seq "").graph.EndsInFork ∧
      Footing (d.grown c .fork label .seq "") (d.fresh .fork label) :=
  ⟨h.grown hc nofun, (endsInFork_grown h.numbered hc.has).2 rfl,
    .fresh h.numbered hc.has (by decide)⟩

/-- The exit of a `return` or of an exception, and its edge to the end of the function. -/
theorem Orderly.leave (h : Orderly m x d.graph) (hc : Footing d c) (label : Label)
    (edge : EdgeKind) : Orderly m x ((d.grown c .exit label .seq "").withEdge
      (d.fresh .exit label) x edge "").graph := by
  have hd := h.numbered
  have h₁ : Orderly m x (d.grown c .exit label .seq "").graph := h.grown hc nofun
  have hnew : d.fresh .exit label ≠ x := fun e => Draft.fresh_not_has hd (e ▸ h.has_exit)
  refine h₁.withEdge ((Draft.has_grown hd hc.has).2 (.inr rfl)) (Graph.rooted_fresh hd) hnew h₁.has_exit ?_
    (.inr ⟨hnew.symm, Graph.outgoing_eq_nil_iff_not_linked.2 h₁.exit_sink⟩)
  rw [h.exit_kind]
  decide

theorem Move.orderly (h : Orderly m x d.graph) (hf : ¬ d.graph.EndsInFork)
    (hm : Move m x c d d') : Orderly m x d'.graph ∧ ¬ d'.graph.EndsInFork := by
  have hd := h.numbered
  cases hm with
  | loops l => exact ⟨h, hf⟩
  | join label =>
    exact ⟨h.withNode (.inl rfl), fun he => by cases (endsInFork_withNode hd).1 he⟩
  | grow hc _ hk =>
    exact ⟨h.grown hc fun _ => hf, fun he => hk ((endsInFork_grown hd hc.has).1 he)⟩
  | forkBranch hc =>
    obtain ⟨h₁, -, hfork⟩ := h.fork hc _
    exact ⟨h₁.grown hfork nofun, fun he => by cases (endsInFork_grown h₁.numbered hfork.has).1 he⟩
  | forkJoin hc =>
    obtain ⟨h₁, -, -⟩ := h.fork hc _
    exact ⟨h₁.withNode (.inl rfl), fun he => by cases (endsInFork_withNode h₁.numbered).1 he⟩
  | forkThen hc _ hdummies =>
    obtain ⟨h₁, hends, -⟩ := h.fork hc _
    exact ⟨h₁.withNode (.inr ⟨rfl, rfl, hends, hdummies⟩),
      fun he => by cases (endsInFork_withNode h₁.numbered).1 he⟩
  | leave hc =>
    refine ⟨h.leave hc _ _, fun he => ?_⟩
    rw [endsInFork_withEdge ((Draft.has_grown hd hc.has).2 (.inr rfl))
      ((Draft.has_grown hd hc.has).2 (.inl h.has_exit)), endsInFork_grown hd hc.has] at he
    cases he
  | link hc ht hne hk hs =>
    refine ⟨h.withEdge hc.has hc.rooted (h.ne_exit hc) ht ?_ (.inr ⟨hne, hs⟩),
      fun he => hf ((endsInFork_withEdge hc.has ht).1 he)⟩
    rcases hk with hk | rfl
    · rw [hk]
      decide
    · rw [h.exit_kind]
      decide
  | back hc ht hk hlink _ hb =>
    refine ⟨h.withEdge hc.has hc.rooted (h.ne_exit hc) ht ?_ (.inl ⟨hb, hlink⟩),
      fun he => hf ((endsInFork_withEdge hc.has ht).1 he)⟩
    rcases hk with hk | hk
    · rw [hk]
      decide
    · rw [hk]
      decide

theorem Run.orderly (h : Orderly m x d.graph) (hf : ¬ d.graph.EndsInFork) (hr : Run m x c d d') :
    Orderly m x d'.graph ∧ ¬ d'.graph.EndsInFork := by
  induction hr with
  | refl => exact ⟨h, hf⟩
  | step _ hm _ ih => exact hm.orderly ih.1 ih.2

end

/-! ## Functions -/

section
variable (m : Manner) (f : Drawing.Frame) (g s : String) (v : Value)

theorem not_stub_opened (n : Node) : ¬ (f.opened g s v).graph.Stub n := by
  rintro ⟨-, k, hk, hin⟩
  rw [Drawing.Frame.vertices_opened] at hin
  have hhead := List.head_eq_of_cons_eq (hin.eq_of_length rfl)
  rw [Graph.node_eq_of_vertex_eq hhead] at hk
  cases hk

theorem not_endsInFork_opened : ¬ (f.opened g s v).graph.EndsInFork := by
  have hv : (f.opened g s v).graph.vertices = (f.begun g s v).graph.vertices ++
      [⟨(f.finish g s v).id, some (f.finish g s v)⟩] :=
    Draft.vertices_withNode (f.numbered_begun g s v)
  rw [Graph.endsInFork_concat hv]
  nofun

theorem orderly_opened : Orderly m (f.finish g s v) (f.opened g s v).graph := by
  have hfree : ∀ u w, ¬ (f.opened g s v).graph.Linked u w := by
    rintro u w ⟨e, he, -⟩
    rw [Drawing.Frame.edges_opened] at he
    cases he
  have hat := f.at_opened g s v
  have hroot : ∀ n, (f.opened g s v).graph.Has n →
      (f.opened g s v).graph.entry = some n.id ∨ n = f.finish g s v := by
    intro n hn
    rcases (f.has_opened g s v).1 hn with rfl | rfl
    · exact .inl (f.entry_opened g s v)
    · exact .inr rfl
  refine ⟨hat.sound.numbered, ⟨_, hat.footing.has, f.entry_opened g s v⟩, hat.sound.has_exit,
    hat.sound.exit_kind, hfree _, ?_, ?_, ?_, ?_⟩
  · intro u hu
    obtain ⟨w, hw, -⟩ := TransGen.head'_iff.1 hu
    exact hfree u w hw.linked
  · exact fun n hn _ => (hroot n hn).imp_right .inl
  · exact fun n hn => absurd hn (not_stub_opened f g s v n)
  · exact fun n hn _ => ⟨n, ⟨hn, (hroot n hn).imp_right .inl⟩, .refl⟩

end

theorem Drafted.orderly {m : Manner} {f : Drawing.Frame} {d : Draft} (h : Drafted m f d) :
    ∃ x, d.exit = some x ∧ Orderly m x d.graph := by
  obtain ⟨g, s, v, hr⟩ := h
  have hat := f.at_opened g s v
  exact ⟨_, (hat.growsOf hr).exit,
    (hr.orderly (orderly_opened m f g s v) (not_endsInFork_opened f g s v)).1⟩

def Dialect.manner : Dialect → Manner
  | .suites => Suite.manner
  | .braces => Braced.manner

theorem run_of_draft {dialect : Dialect} {code : Bytes} {settings : Option Value} {t : Tree}
    {d : Draft} (h : draft dialect code settings t = (.ok (), d)) :
    ∃ (f : Drawing.Frame) (g s : String) (v : Value), Tree.fieldText code "name" t.children = .ok s ∧
      describe settings s = .ok v ∧
      Run dialect.manner (f.finish g s v) (f.entry g s v) (f.opened g s v) d := by
  cases dialect with
  | suites => exact ⟨_, _, Suite.run_of_draft h⟩
  | braces => exact ⟨_, _, Braced.run_of_draft h⟩

theorem drafted_of_draft {dialect : Dialect} {code : Bytes} {settings : Option Value} {t : Tree}
    {d : Draft} (h : draft dialect code settings t = (.ok (), d)) :
    ∃ f, Drafted dialect.manner f d := by
  obtain ⟨f, g, s, v, -, -, hr⟩ := run_of_draft h
  exact ⟨f, g, s, v, hr⟩

theorem Dialect.eq_braces_of_dummies {dialect : Dialect} (h : dialect.manner.dummies) :
    dialect = .braces := by
  cases dialect with
  | suites => exact h.elim
  | braces => rfl

/-- What the order of drawing brings about in the flow graph of a function. -/
structure FlowsForward (dialect : Dialect) (d : Draft) : Prop where
  -- without the edges that lead back to the header of a loop there is no cycle
  acyclic : ∀ u, ¬ TransGen d.graph.Forward u u
  -- something leads to every node but the entry, the end, joins and the stubs of conditions
  sources : ∀ n, d.graph.Has n → d.graph.incoming n = [] → d.graph.entry = some n.id ∨
    d.exit = some n ∨ n.kind = .join ∨ dialect = .braces ∧ d.graph.Stub n
  -- only conditions in braces leave stubs, which have no edges at all
  stubs : ∀ n, d.graph.Stub n → dialect = .braces ∧ n.label = "Then" ∧ d.graph.incoming n = [] ∧
    d.graph.outgoing n = []
  -- all other nodes are reached from the entry, from the end or from a join nothing leads to
  reached : ∀ n, d.graph.Has n → ¬ d.graph.Stub n → ∃ s, d.graph.Has s ∧
    (d.graph.entry = some s.id ∨ d.exit = some s ∨ s.kind = .join ∧ d.graph.incoming s = []) ∧
      ReflTransGen d.graph.Linked s.id n.id

theorem draft_flowsForward {dialect : Dialect} {code : Bytes} {settings : Option Value} {t : Tree}
    {d : Draft} (h : draft dialect code settings t = (.ok (), d)) : FlowsForward dialect d := by
  obtain ⟨f, hf⟩ := drafted_of_draft h
  obtain ⟨x, hx, ho⟩ := hf.orderly
  refine ⟨ho.acyclic, ?_, ?_, ?_⟩
  · intro n hn hfree
    rcases ho.sources n hn (Graph.incoming_eq_nil.1 hfree) with he | rfl | hk | hs
    · exact .inl he
    · exact .inr (.inl hx)
    · exact .inr (.inr (.inl hk))
    · exact .inr (.inr (.inr ⟨Dialect.eq_braces_of_dummies (ho.stubs n hs).1, hs⟩))
  · intro n hs
    obtain ⟨hm, hl, -, hfree⟩ := ho.stubs n hs
    exact ⟨Dialect.eq_braces_of_dummies hm, hl, Graph.incoming_eq_nil.2 fun u => (hfree u).1,
      Graph.outgoing_eq_nil_iff_not_linked.2 fun u => (hfree u).2⟩
  · intro n hn hs
    obtain ⟨s, ⟨hhas, hroot⟩, hreach⟩ := ho.reached n hn hs
    refine ⟨s, hhas, ?_, hreach⟩
    rcases hroot with he | rfl | ⟨hk, hfree⟩
    · exact .inl he
    · exact .inr (.inl hx)
    · exact .inr (.inr ⟨hk, Graph.incoming_eq_nil.2 hfree⟩)

/-- A loop that never ends around a condition, so that nothing leads to the loop's exit. -/
def endlessCode : Bytes := "fn f() { loop { if a { b } } }".toUTF8.toList

def endlessLoop : Tree :=
  .node "function_item" 0 30 none
    [.node "identifier" 3 4 (some "name") [],
     .node "block" 7 30 (some "body")
      [.node "loop_expression" 9 28 none
        [.node "block" 14 28 (some "body")
          [.node "if_expression" 16 26 none
            [.node "identifier" 19 20 (some "condition") [],
             .node "block" 21 26 (some "consequence")
              [.node "identifier" 23 24 none []]]]]]]

theorem endlessLoop_flowsForward : (draft .braces endlessCode none endlessLoop).1 = .ok () ∧
    FlowsForward .braces (draft .braces endlessCode none endlessLoop).2 := by
  have h : (draft .braces endlessCode none endlessLoop).1 = .ok () := by decide +kernel
  exact ⟨h, draft_flowsForward (Prod.ext h rfl)⟩

end Workbench.Flow
