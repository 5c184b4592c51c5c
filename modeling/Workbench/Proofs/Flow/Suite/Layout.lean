import Workbench.Proofs.Flow.Suite.Growth
import Mathlib.Data.List.Basic

/-!
# The layout of drawn suites

No edge of a suite is drawn twice. Nodes are numbered in the order in which they come in, first the
entry and then the end. Apart from joins, and from forks that rounds of a loop come back to, exactly
one edge leads to a node; and apart from forks and the scopes of guarded suites, at most one edge
leads on. Every move keeps this.
-/

namespace Workbench.Flow

/-! ## Degrees after one more edge -/

namespace Graph

variable {g g' : Graph} {e : Edge} {n : Node}

theorem outgoing_concat (h : g'.edges = g.edges ++ [e]) (n : Node) :
    g'.outgoing n = g.outgoing n ++ if e.source = n.id then [e] else [] := by
  unfold outgoing
  rw [h, List.filter_append]
  by_cases hs : e.source = n.id <;> simp [hs]

theorem incoming_concat (h : g'.edges = g.edges ++ [e]) (n : Node) :
    g'.incoming n = g.incoming n ++ if e.target = n.id then [e] else [] := by
  unfold incoming
  rw [h, List.filter_append]
  by_cases ht : e.target = n.id <;> simp [ht]

theorem Numbered.no_edges (hg : g.Numbered) (hn : ∀ k, g.Has k → k.id ≠ n.id) :
    g.outgoing n = [] ∧ g.incoming n = [] := by
  unfold outgoing incoming
  rw [List.filter_eq_nil_iff, List.filter_eq_nil_iff]
  constructor
  · intro e he hs
    obtain ⟨k, hk, hid⟩ := hg.source e he
    exact hn k hk (hid.trans (by simpa using hs))
  · intro e he ht
    obtain ⟨k, hk, hid⟩ := hg.target e he
    exact hn k hk (hid.trans (by simpa using ht))

end Graph

namespace Suite

/-! ## What every move keeps -/

def Spreads (n : Node) : Prop := n.kind = .fork ∨ n.kind = .virtual ∧ n.label = "try scope"

structure Linear (x : Node) (d : Draft) : Prop where
  numbered : d.graph.Numbered
  strokes : d.strokes = d.graph.edges
  ends : d.graph.edges.Pairwise fun a b => ¬ (a.source = b.source ∧ a.target = b.target)
  entry : ∃ e, d.graph.Has e ∧ d.graph.entry = some e.id ∧ e.kind = .block ∧
    d.graph.incoming e = []
  has_exit : d.graph.Has x
  exit_kind : x.kind = .exit
  exit_sink : d.graph.outgoing x = []
  outgoing : ∀ n, d.graph.Has n → ¬ Spreads n → (d.graph.outgoing n).length ≤ 1
  incoming : ∀ n, d.graph.Has n → n.kind ≠ .fork → n.kind ≠ .join → d.graph.entry ≠ some n.id →
    n ≠ x → (d.graph.incoming n).length = 1
  forks : ∀ n, d.graph.Has n → n.kind = .fork →
    ∃ e, (d.graph.incoming n).filter (fun e => e.kind ≠ .jump) = [e] ∧ e.kind = .seq

section
variable {x c t : Node} {d d' : Draft} {e : Edge} {kind : NodeKind} {label : Label} {edgeLabel : String}
  {edge : EdgeKind}

/-- One more edge: to a join, to the end, back to a fork, or to a node that came in with it. -/
theorem Linear.extend (h : Linear x d) (hd : d'.graph.Numbered)
    (hedges : d'.graph.edges = d.graph.edges ++ [e]) (hstrokes : d'.strokes = d.strokes ++ [e])
    (hentry : d'.graph.entry = d.graph.entry)
    (hhas : ∀ {n}, d'.graph.Has n ↔ d.graph.Has n ∨ n = t) (hs : e.source = c.id)
    (ht : e.target = t.id) (hc : d.graph.Has c) (hcx : c ≠ x)
    (hfree : manner.free (d.graph.outgoing c) c t)
    (hcase : d.graph.Has t ∧ (t.kind = .join ∨ t = x ∨ t.kind = .fork ∧ e.kind = .jump) ∨
      ¬ d.graph.Has t ∧ (t.kind = .fork → e.kind = .seq)) : Linear x d' := by
  have hold : ∀ {n}, d.graph.Has n → d'.graph.Has n := fun hn => hhas.2 (.inl hn)
  have htin : d'.graph.Has t := hhas.2 (.inr rfl)
  have hout : ∀ n, d'.graph.Has n → n ≠ c → d'.graph.outgoing n = d.graph.outgoing n := by
    intro n hn hnc
    rw [Graph.outgoing_concat hedges, hs, if_neg, List.append_nil]
    exact fun hid => hnc (hd.eq_of_id hn (hold hc) hid.symm)
  have hin : ∀ n, d'.graph.Has n → n ≠ t → d'.graph.incoming n = d.graph.incoming n := by
    intro n hn hnt
    rw [Graph.incoming_concat hedges, ht, if_neg, List.append_nil]
    exact fun hid => hnt (hd.eq_of_id hn htin hid.symm)
  have hint : d'.graph.incoming t = d.graph.incoming t ++ [e] := by
    rw [Graph.incoming_concat hedges, if_pos ht]
  have hnew : ¬ d.graph.Has t → d.graph.outgoing t = [] ∧ d.graph.incoming t = [] :=
    fun hnt => h.numbered.no_edges fun k hk hid => hnt (hd.eq_of_id (hold hk) htin hid ▸ hk)
  refine ⟨hd, by rw [hstrokes, hedges, h.strokes], ?_, ?_, hold h.has_exit, h.exit_kind,
    by rw [hout x (hold h.has_exit) hcx.symm, h.exit_sink], ?_, ?_, ?_⟩
  · rw [hedges]
    refine List.pairwise_append.2 ⟨h.ends, List.pairwise_singleton _ _, ?_⟩
    rintro a ha b hb ⟨hsrc, htgt⟩
    rw [List.mem_singleton.1 hb] at hsrc htgt
    have hac : a ∈ d.graph.outgoing c := by
      simpa [Graph.outgoing] using ⟨ha, hsrc.trans hs⟩
    exact hfree.2 a hac (htgt.trans ht)
  · obtain ⟨k, hk, hid, hkind, hfree⟩ := h.entry
    refine ⟨k, hold hk, hentry.trans hid, hkind, ?_⟩
    rw [hin k (hold hk), hfree]
    rintro rfl
    rcases hcase with ⟨-, hj | rfl | ⟨hf, -⟩⟩ | ⟨hnt, -⟩
    · rw [hkind] at hj
      cases hj
    · rw [h.exit_kind] at hkind
      cases hkind
    · rw [hkind] at hf
      cases hf
    · exact hnt hk
  · intro n hn hns
    by_cases hnc : n = c
    · subst hnc
      have hnil : d.graph.outgoing n = [] := hfree.1.resolve_right hns
      rw [Graph.outgoing_concat hedges, if_pos hs, hnil]
      exact Nat.le_refl 1
    · rw [hout n hn hnc]
      rcases hhas.1 hn with hn | rfl
      · exact h.outgoing n hn hns
      · by_cases hnt : d.graph.Has n
        · exact h.outgoing n hnt hns
        · rw [(hnew hnt).1]
          exact Nat.zero_le 1
  · intro n hn hnf hnj hne hnx
    rw [hentry] at hne
    by_cases hnt : n = t
    · subst hnt
      rcases hcase with ⟨-, hj | hx | ⟨hf, -⟩⟩ | ⟨hnt, -⟩
      · exact absurd hj hnj
      · exact absurd hx hnx
      · exact absurd hf hnf
      · rw [hint, (hnew hnt).2]
        rfl
    · rw [hin n hn hnt]
      exact h.incoming n ((hhas.1 hn).resolve_right hnt) hnf hnj hne hnx
  · intro n hn hnf
    by_cases hnt : n = t
    · subst hnt
      rw [hint, List.filter_append]
      rcases hcase with ⟨hnt, hj | hx | ⟨-, hjump⟩⟩ | ⟨hnt, hseq⟩
      · rw [hnf] at hj
        cases hj
      · rw [hx, h.exit_kind] at hnf
        cases hnf
      · obtain ⟨k, hk, hkseq⟩ := h.forks n hnt hnf
        refine ⟨k, ?_, hkseq⟩
        rw [hk]
        simp [hjump]
      · refine ⟨e, ?_, hseq hnf⟩
        rw [(hnew hnt).2]
        simp [hseq hnf]
    · rw [hin n hn hnt]
      exact h.forks n ((hhas.1 hn).resolve_right hnt) hnf

theorem Linear.ne_exit (h : Linear x d) (hc : Footing d c) : c ≠ x :=
  fun e => hc.not_exit (e ▸ h.exit_kind)

theorem Linear.grown (h : Linear x d) (hc : Footing d c)
    (hfree : manner.free (d.graph.outgoing c) c (d.fresh kind label))
    (hk : kind = .fork → edge = .seq) : Linear x (d.grown c kind label edge edgeLabel) :=
  h.extend (Draft.numbered_grown h.numbered hc.has) (Draft.edges_grown h.numbered) rfl
    (Grows.grown h.numbered hc.has kind label edge edgeLabel).entry
    (Draft.has_grown h.numbered hc.has) rfl rfl hc.has (h.ne_exit hc) hfree
    (.inr ⟨Draft.fresh_not_has h.numbered, hk⟩)

theorem Linear.withEdge (h : Linear x d) (hc : d.graph.Has c) (hcx : c ≠ x) (ht : d.graph.Has t)
    (hfree : manner.free (d.graph.outgoing c) c t)
    (hk : t.kind = .join ∨ t = x ∨ t.kind = .fork ∧ edge = .jump) :
    Linear x (d.withEdge c t edge edgeLabel) := by
  have hlink : ¬ d.graph.Linked c.id t.id := by
    rw [Graph.linked_iff_mem_outgoing]
    rintro ⟨e, he, hid⟩
    exact hfree.2 e he hid
  refine h.extend (Draft.numbered_withEdge h.numbered hc ht)
    (Graph.edges_addEdge_of_not_linked hlink) rfl (Draft.entry_withEdge hc ht) ?_ rfl rfl hc hcx
    hfree (.inl ⟨ht, hk⟩)
  intro n
  rw [Draft.has_withEdge hc ht]
  exact ⟨.inl, fun hn => hn.elim (fun hn => hn) fun e => e ▸ ht⟩

theorem Linear.withJoin (h : Linear x d) (label : Label) : Linear x (d.withNode .join label) := by
  have hd := h.numbered
  have hedges : (d.withNode .join label).graph.edges = d.graph.edges := Draft.edges_withNode hd
  have hhas : ∀ {n}, (d.withNode .join label).graph.Has n ↔
      d.graph.Has n ∨ n = d.fresh .join label := Draft.has_withNode hd
  have hout : ∀ n, (d.withNode .join label).graph.outgoing n = d.graph.outgoing n :=
    Draft.outgoing_withNode hd
  have hin : ∀ n, (d.withNode .join label).graph.incoming n = d.graph.incoming n := by
    intro n
    unfold Graph.incoming
    rw [hedges]
  have hentry : (d.withNode .join label).graph.entry = d.graph.entry := Draft.entry_withNode hd
  refine ⟨hd.addNode _ _ _, h.strokes.trans hedges.symm, by rw [hedges]; exact h.ends, ?_,
    hhas.2 (.inl h.has_exit), h.exit_kind, by rw [hout, h.exit_sink], ?_, ?_, ?_⟩
  · obtain ⟨k, hk, hid, hkind, hfree⟩ := h.entry
    exact ⟨k, hhas.2 (.inl hk), hentry.trans hid, hkind, by rw [hin, hfree]⟩
  · intro n hn hns
    rw [hout]
    rcases hhas.1 hn with hn | rfl
    · exact h.outgoing n hn hns
    · rw [Draft.outgoing_fresh hd]
      exact Nat.zero_le 1
  · intro n hn hnf hnj hne hnx
    rw [hin]
    rw [hentry] at hne
    rcases hhas.1 hn with hn | rfl
    · exact h.incoming n hn hnf hnj hne hnx
    · exact absurd rfl hnj
  · intro n hn hnf
    rw [hin]
    rcases hhas.1 hn with hn | rfl
    · exact h.forks n hn hnf
    · cases hnf

theorem Linear.withLoops (h : Linear x d) (l : List Loop) : Linear x (d.withLoops l) :=
  ⟨h.numbered, h.strokes, h.ends, h.entry, h.has_exit, h.exit_kind, h.exit_sink, h.outgoing,
    h.incoming, h.forks⟩

/-! ## Moves and runs -/

theorem Linear.fork (h : Linear x d) (hc : Footing d c)
    (hfree : manner.free (d.graph.outgoing c) c (d.fresh .fork label)) :
    Linear x (d.grown c .fork label .seq "") ∧
      Footing (d.grown c .fork label .seq "") (d.fresh .fork label) :=
  ⟨h.grown hc hfree fun _ => rfl, .fresh h.numbered hc.has (by decide)⟩

theorem Linear.leave (h : Linear x d) (hc : Footing d c)
    (hfree : manner.free (d.graph.outgoing c) c (d.fresh .exit label)) :
    Linear x ((d.grown c .exit label .seq "").withEdge (d.fresh .exit label) x edge "") := by
  have h₁ : Linear x (d.grown c .exit label .seq "") := h.grown hc hfree nofun
  have hnew : d.fresh .exit label ≠ x :=
    fun e => Draft.fresh_not_has h.numbered (e ▸ h.has_exit)
  exact h₁.withEdge ((Draft.has_grown h.numbered hc.has).2 (.inr rfl)) hnew h₁.has_exit
    (free_of_sink (Draft.sink_grown h.numbered hc.has)) (.inr (.inl rfl))

theorem Linear.move (h : Linear x d) (hm : Move manner x c d d') : Linear x d' := by
  cases hm with
  | loops l => exact h.withLoops l
  | join label => exact h.withJoin label
  | grow hc hfree hk => exact h.grown hc hfree fun e => absurd e hk
  | forkBranch hc hfree _ hfree' =>
    obtain ⟨h₁, hfork⟩ := h.fork hc hfree
    refine h₁.grown hfork ?_ nofun
    rw [Draft.sink_grown h.numbered hc.has]
    exact hfree'
  | forkJoin hc hfree => exact (h.fork hc hfree).1.withJoin _
  | forkThen _ _ hdummies => exact hdummies.elim
  | leave hc hfree => exact h.leave hc hfree
  | link hc ht _ hk _ hfree =>
    exact h.withEdge hc.has (h.ne_exit hc) ht hfree (hk.imp_right .inl)
  | back hc ht hk _ hfree =>
    exact h.withEdge hc.has (h.ne_exit hc) ht hfree
      (hk.elim (fun hk => .inr (.inr ⟨hk, rfl⟩)) .inl)

/-- Where the function is left, exactly one edge leads on, and it leads to the end. -/
def Leaving (x : Node) (g : Graph) : Prop :=
  ∀ n, g.Has n → n.kind = .exit → n ≠ x →
    n.label = "return" ∧ g.outgoing n = [⟨n.id, x.id, .seq, ""⟩] ∨
      n.label = "raise" ∧ g.outgoing n = [⟨n.id, x.id, .err, ""⟩] ∨ n.label = "panic!"

/-- Moves that add no place where the function is left keep the old ones as they are. -/
theorem Leaving.grows (h : Leaving x d.graph) (hc : c.kind ≠ .exit) (hg : Grows c d d')
    (hnew : ∀ n, d'.graph.Has n → n.kind = .exit → d.graph.Has n ∨ n.label = "panic!") :
    Leaving x d'.graph := by
  intro n hn hk hnx
  rcases hnew n hn hk with hn | hl
  · rw [hg.outgoing n hn fun e => hc (e ▸ hk)]
    exact h n hn hk hnx
  · exact .inr (.inr hl)

theorem outgoing_leave (hd : d.graph.Numbered) (hc : d.graph.Has c) :
    ((d.grown c .exit label .seq "").withEdge (d.fresh .exit label) x edge "").graph.outgoing
      (d.fresh .exit label) = [⟨(d.fresh .exit label).id, x.id, edge, ""⟩] := by
  have hsink : (d.grown c .exit label .seq "").graph.outgoing (d.fresh .exit label) = [] :=
    Draft.sink_grown hd hc
  rw [Draft.withEdge, Graph.outgoing_concat (Graph.edges_addEdge_of_not_linked
    (Graph.not_linked_of_outgoing_eq_nil hsink _)), hsink, if_pos rfl, List.nil_append]

theorem Leaving.move (h : Leaving x d.graph) (hl : Linear x d) (hm : Move manner x c d d') :
    Leaving x d'.graph := by
  have hd := hl.numbered
  have hgrows := (hm.grows hd hl.has_exit).2
  cases hm with
  | loops l => exact h
  | join label =>
    have hg : Grows (d.fresh .join label) d (d.withNode .join label) := .withNode hd _ _
    refine h.grows (show NodeKind.join ≠ .exit by decide) hg fun n hn hk => ?_
    rcases (Draft.has_withNode hd).1 hn with hn | rfl
    · exact .inl hn
    · cases hk
  | grow hc _ _ hpanic =>
    refine h.grows hc.not_exit hgrows fun n hn hk => ?_
    rcases (Draft.has_grown hd hc.has).1 hn with hn | rfl
    · exact .inl hn
    · exact .inr (hpanic hk)
  | forkBranch hc hfree =>
    obtain ⟨h₁, hfork⟩ := hl.fork hc hfree
    refine h.grows hc.not_exit hgrows fun n hn hk => ?_
    rcases (Draft.has_grown h₁.numbered hfork.has).1 hn with hn | rfl
    · rcases (Draft.has_grown hd hc.has).1 hn with hn | rfl
      · exact .inl hn
      · cases hk
    · cases hk
  | forkJoin hc hfree =>
    obtain ⟨h₁, -⟩ := hl.fork hc hfree
    refine h.grows hc.not_exit hgrows fun n hn hk => ?_
    rcases (Draft.has_withNode h₁.numbered).1 hn with hn | rfl
    · rcases (Draft.has_grown hd hc.has).1 hn with hn | rfl
      · exact .inl hn
      · cases hk
    · cases hk
  | forkThen _ _ hdummies => exact hdummies.elim
  | leave hc _ hlabel =>
    intro n hn hk hnx
    rw [Draft.has_withEdge ((Draft.has_grown hd hc.has).2 (.inr rfl))
      ((Draft.has_grown hd hc.has).2 (.inl hl.has_exit)), Draft.has_grown hd hc.has] at hn
    rcases hn with hn | rfl
    · rw [hgrows.outgoing n hn fun e => hc.not_exit (e ▸ hk)]
      exact h n hn hk hnx
    · rw [outgoing_leave hd hc.has]
      rcases hlabel with ⟨hlabel, rfl⟩ | ⟨hlabel, rfl⟩
      · exact .inl ⟨hlabel, rfl⟩
      · exact .inr (.inl ⟨hlabel, rfl⟩)
  | link hc ht =>
    exact h.grows hc.not_exit hgrows fun n hn _ => .inl ((Draft.has_withEdge hc.has ht).1 hn)
  | back hc ht =>
    exact h.grows hc.not_exit hgrows fun n hn _ => .inl ((Draft.has_withEdge hc.has ht).1 hn)

theorem Linear.run (h : Linear x d) (hl : Leaving x d.graph) (hr : Run manner x c d d') :
    Linear x d' ∧ Leaving x d'.graph := by
  induction hr with
  | refl => exact ⟨h, hl⟩
  | step _ hm _ ih => exact ⟨ih.1.move hm, ih.2.move ih.1 hm⟩

end

/-! ## Functions -/

section
variable (f : Drawing.Frame) (g s : String) (v : Value)

theorem incoming_opened (n : Node) : (f.opened g s v).graph.incoming n = [] := by
  unfold Graph.incoming
  rw [Drawing.Frame.edges_opened, List.filter_nil]

theorem linear_opened : Linear (f.finish g s v) (f.opened g s v) := by
  have hsound := f.sound_opened g s v
  refine ⟨hsound.numbered, (f.edges_opened g s v).symm, ?_, ?_, hsound.has_exit, hsound.exit_kind,
    hsound.exit_sink, ?_, ?_, ?_⟩
  · rw [Drawing.Frame.edges_opened]
    exact .nil
  · exact ⟨_, (f.has_opened g s v).2 (.inl rfl), f.entry_opened g s v, rfl, incoming_opened f g s v _⟩
  · intro n _ _
    rw [Drawing.Frame.outgoing_opened]
    exact Nat.zero_le 1
  · intro n hn _ _ he hx
    rcases (f.has_opened g s v).1 hn with rfl | rfl
    · exact absurd (f.entry_opened g s v) he
    · exact absurd rfl hx
  · intro n hn hk
    rcases (f.has_opened g s v).1 hn with rfl | rfl <;> cases hk

theorem leaving_opened : Leaving (f.finish g s v) (f.opened g s v).graph := by
  intro n hn hk hx
  rcases (f.has_opened g s v).1 hn with rfl | rfl
  · cases hk
  · exact absurd rfl hx

end

/-- How the flow graph of a function in suites is laid out. -/
structure Layout (entry exit : Node) (d : Draft) : Prop where
  -- no edge was drawn in the place of another
  strokes : d.strokes = d.graph.edges
  ends : d.graph.edges.Pairwise fun a b => ¬ (a.source = b.source ∧ a.target = b.target)
  -- the name of a node is its kind and its number
  ids : ∀ i v, d.graph.vertices[i]? = some v →
    ∃ n : Node, v = ⟨n.id, some n⟩ ∧ n.id = nodeId n.kind (i + 1)
  first : d.graph.vertices[0]? = some ⟨entry.id, some entry⟩
  entry_id : d.graph.entry = some entry.id
  entry_source : d.graph.incoming entry = []
  second : d.graph.vertices[1]? = some ⟨exit.id, some exit⟩
  exit_node : d.exit = some exit
  exit_sink : d.graph.outgoing exit = []
  -- one edge at most leads on, except from forks and from the scopes of guarded suites
  outgoing : ∀ n, d.graph.Has n → ¬ Spreads n → (d.graph.outgoing n).length ≤ 1
  returns : ∀ n, d.graph.Has n → n.kind = .exit → n.label = "return" →
    d.graph.outgoing n = [⟨n.id, exit.id, .seq, ""⟩]
  raises : ∀ n, d.graph.Has n → n.kind = .exit → n.label = "raise" →
    d.graph.outgoing n = [⟨n.id, exit.id, .err, ""⟩]
  -- one edge leads to a node, except to forks and joins
  incoming : ∀ n, d.graph.Has n → n.kind = .block ∨ n.kind = .call ∨ n.kind = .virtual ∨
    n.kind = .exit → n ≠ entry → n ≠ exit → (d.graph.incoming n).length = 1
  -- one edge of plain sequence leads to a fork, besides the ways back from rounds of a loop
  forks : ∀ n, d.graph.Has n → n.kind = .fork →
    ∃ e, (d.graph.incoming n).filter (fun e => e.kind ≠ .jump) = [e] ∧ e.kind = .seq

/-- The end of the function must be labelled otherwise than what leads to it. -/
theorem layout_of_drafted {f : Drawing.Frame} {d : Draft} (h : Drafted manner f d)
    (hreturn : f.exit ≠ "return") (hraise : f.exit ≠ "raise") :
    ∃ entry exit, Layout entry exit d := by
  obtain ⟨g, s, v, hr⟩ := h
  have hgrows := (f.at_opened g s v).growsOf hr
  obtain ⟨hl, hleave⟩ := (linear_opened f g s v).run (leaving_opened f g s v) hr
  obtain ⟨rest, hrest⟩ := hgrows.vertices
  rw [Drawing.Frame.vertices_opened] at hrest
  have hentry : d.graph.entry = some (f.entry g s v).id := hgrows.entry.trans (f.entry_opened g s v)
  have hhas : d.graph.Has (f.entry g s v) := hgrows.has ((f.has_opened g s v).2 (.inl rfl))
  refine ⟨f.entry g s v, f.finish g s v, hl.strokes, hl.ends, hl.numbered.vertex,
    by rw [← hrest]; rfl, hentry, ?_, by rw [← hrest]; rfl, hgrows.exit, hl.exit_sink, hl.outgoing, ?_, ?_, ?_, hl.forks⟩
  · obtain ⟨e, he, hid, -, hfree⟩ := hl.entry
    rw [hentry] at hid
    rw [hl.numbered.eq_of_id hhas he (Option.some.inj hid)]
    exact hfree
  · intro n hn hk hlabel
    have hnx : n ≠ f.finish g s v := by
      rintro rfl
      exact hreturn hlabel
    rcases hleave n hn hk hnx with ⟨-, ho⟩ | ⟨hl, -⟩ | hl
    · exact ho
    · exact absurd (hlabel.symm.trans hl) (by decide)
    · exact absurd (hlabel.symm.trans hl) (by decide)
  · intro n hn hk hlabel
    have hnx : n ≠ f.finish g s v := by
      rintro rfl
      exact hraise hlabel
    rcases hleave n hn hk hnx with ⟨hl, -⟩ | ⟨-, ho⟩ | hl
    · exact absurd (hlabel.symm.trans hl) (by decide)
    · exact ho
    · exact absurd (hlabel.symm.trans hl) (by decide)
  · intro n hn hk hne hnx
    refine hl.incoming n hn ?_ ?_ ?_ hnx
    · rintro hf
      rw [hf] at hk
      simp at hk
    · rintro hj
      rw [hj] at hk
      simp at hk
    · rw [hentry]
      exact fun he => hne (hl.numbered.eq_of_id hn hhas (Option.some.inj he).symm)

theorem draft_layout {source : Bytes} {describe : String → Except DrawFault Value} {t : Tree}
    {d : Draft} (h : draft source describe t = (.ok (), d)) :
    ∃ entry exit, Layout entry exit d :=
  layout_of_drafted (drafted h) (by decide) (by decide)

/-- A loop around a guarded suite that returns, with a handler that raises. -/
def guardedCode : Bytes :=
  "def f():\n while a:\n  try:\n   return\n  except E:\n   raise\n".toUTF8.toList

def guardedLoop : Tree :=
  .node "function_definition" 0 56 none
    [.node "identifier" 4 5 (some "name") [],
     .node "block" 10 56 (some "body")
      [.node "while_statement" 10 56 none
        [.node "identifier" 16 17 (some "condition") [],
         .node "block" 21 56 (some "body")
          [.node "try_statement" 21 56 none
            [.node "block" 29 35 (some "body") [.node "return_statement" 29 35 none []],
             .node "except_clause" 38 56 none
              [.node "identifier" 45 46 none [],
               .node "block" 51 56 (some "body") [.node "raise_statement" 51 56 none []]]]]]]]

theorem guardedLoop_layout :
    (draft guardedCode (fun _ => .ok (.str "")) guardedLoop).1 = .ok () ∧
      ∃ entry exit, Layout entry exit (draft guardedCode (fun _ => .ok (.str "")) guardedLoop).2 := by
  have h : (draft guardedCode (fun _ => .ok (.str "")) guardedLoop).1 = .ok () := by decide +kernel
  exact ⟨h, draft_layout (Prod.ext h rfl)⟩

end Suite

end Workbench.Flow
