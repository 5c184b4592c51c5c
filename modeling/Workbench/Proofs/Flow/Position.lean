import Workbench.Proofs.Flow.Growth

/-!
# Where drawing stands

The end of the function and the exits of the open loops lead nowhere while the loops are open, and
the flow never stands at one of them. A statement is drawn by a run of moves from the node where the
flow stands, with the same loops open before and after, and the flow goes on from that node or from
a new one.
-/

namespace Workbench.Flow

structure Loop.Open (g : Graph) (l : Loop) : Prop where
  has_header : g.Has l.header
  header_kind : l.header.kind = .fork ∨ l.header.kind = .join
  header_linked : ∃ u, g.Linked u l.header.id
  has_exit : g.Has l.exit
  exit_kind : l.exit.kind = .join
  exit_sink : g.outgoing l.exit = []

/-- A numbered draft with an end that leads nowhere, around which loops are open. -/
structure Sound (x : Node) (d : Draft) : Prop where
  numbered : d.graph.Numbered
  exit : d.exit = some x
  exit_kind : x.kind = .exit
  has_exit : d.graph.Has x
  exit_sink : d.graph.outgoing x = []
  loops : ∀ l ∈ d.loops, l.Open d.graph

/-- The draft is sound, and the flow can stand at `c`. -/
structure At (x : Node) (d : Draft) (c : Node) : Prop where
  sound : Sound x d
  footing : Footing d c
  ne_loop : ∀ l ∈ d.loops, c ≠ l.exit

section
variable {m : Manner} {x c n : Node} {d d₁ d' : Draft}

theorem At.ne_exit (h : At x d c) : c ≠ x :=
  fun e => h.footing.not_exit (e ▸ h.sound.exit_kind)

theorem Graph.Rooted.grows (h : d.graph.Rooted n) (hg : Grows c d d') : d'.graph.Rooted n := by
  rcases h with h | h | ⟨u, h⟩
  · exact .inl h
  · exact .inr (.inl (hg.entry.trans h))
  · exact .inr (.inr ⟨u, hg.linked _ _ h⟩)

theorem Loop.Open.grows {l : Loop} (h : l.Open d.graph) (hg : Grows c d d') (hc : c ≠ l.exit) :
    l.Open d'.graph where
  has_header := hg.has h.has_header
  header_kind := h.header_kind
  header_linked := by
    obtain ⟨u, hu⟩ := h.header_linked
    exact ⟨u, hg.linked _ _ hu⟩
  has_exit := hg.has h.has_exit
  exit_kind := h.exit_kind
  exit_sink := (hg.outgoing _ h.has_exit hc.symm).trans h.exit_sink

theorem Sound.openLoop {l : Loop} (h : Sound x d) (hl : l.Open d.graph) :
    Sound x (d.withLoops (l :: d.loops)) where
  numbered := h.numbered
  exit := h.exit
  exit_kind := h.exit_kind
  has_exit := h.has_exit
  exit_sink := h.exit_sink
  loops := by
    intro k hk
    rcases List.mem_cons.1 hk with rfl | hk
    · exact hl
    · exact h.loops k hk

/-- Drawing on from one node keeps all places where the flow can stand. -/
theorem At.grows (hn : At x d n) (hc : At x d c) (hd : d'.graph.Numbered) (hg : Grows c d d')
    (hl : d'.loops = d.loops) : At x d' n where
  sound :=
    { numbered := hd
      exit := hg.exit.trans hc.sound.exit
      exit_kind := hc.sound.exit_kind
      has_exit := hg.has hc.sound.has_exit
      exit_sink := (hg.outgoing x hc.sound.has_exit hc.ne_exit.symm).trans hc.sound.exit_sink
      loops := by
        rw [hl]
        exact fun l h => (hc.sound.loops l h).grows hg (hc.ne_loop l h) }
  footing := ⟨hg.has hn.footing.has, hn.footing.rooted.grows hg, hn.footing.not_exit⟩
  ne_loop := by
    rw [hl]
    exact hn.ne_loop

theorem At.run (hn : At x d n) (hc : At x d c) (h : Run m x c d d') (hl : d'.loops = d.loops) :
    At x d' n :=
  have hg := h.grows hc.sound.numbered hc.sound.has_exit
  hn.grows hc hg.1 hg.2 hl

theorem At.growsOf (hc : At x d c) (h : Run m x c d d') : Grows c d d' :=
  (h.grows hc.sound.numbered hc.sound.has_exit).2

/-- The flow can stand at a node that came in since, if it is a join or something leads to it. -/
theorem At.of_new (h : Sound x d) (h' : Sound x d') (hl : d'.loops = d.loops)
    (hn : d'.graph.Has n) (hr : d'.graph.Rooted n) (hk : n.kind ≠ .exit)
    (hnew : ¬ d.graph.Has n) : At x d' n where
  sound := h'
  footing := ⟨hn, hr, hk⟩
  ne_loop := by
    intro l hmem e
    rw [hl] at hmem
    exact hnew (e ▸ (h.loops l hmem).has_exit)

/-! ## New nodes -/

structure Placed (x : Node) (d : Draft) (n : Node) (d' : Draft) : Prop where
  stands : At x d' n
  sink : d'.graph.outgoing n = []
  new : ¬ d.graph.Has n
  loops : d'.loops = d.loops

theorem Placed.ne {k : Node} (h : Placed x d n d') (hk : d.graph.Has k) : n ≠ k :=
  fun e => h.new (e ▸ hk)

theorem At.keptByGrown (hn : At x d n) (hc : At x d c) (kind : NodeKind) (label : Label)
    (edge : EdgeKind) (edgeLabel : String) : At x (d.grown c kind label edge edgeLabel) n :=
  hn.grows hc (Draft.numbered_grown hc.sound.numbered hc.footing.has)
    (Grows.grown hc.sound.numbered hc.footing.has kind label edge edgeLabel) rfl

theorem At.grown (hc : At x d c) (kind : NodeKind) (label : Label) (edge : EdgeKind)
    (edgeLabel : String) (hk : kind ≠ .exit) :
    Placed x d (d.fresh kind label) (d.grown c kind label edge edgeLabel) := by
  have hd := hc.sound.numbered
  exact ⟨.of_new hc.sound (hc.keptByGrown hc kind label edge edgeLabel).sound rfl
    ((Draft.has_grown hd hc.footing.has).2 (.inr rfl)) (Graph.rooted_fresh hd) hk
    (Draft.fresh_not_has hd), Draft.sink_grown hd hc.footing.has, Draft.fresh_not_has hd, rfl⟩

theorem Sound.withNode (h : Sound x d) (kind : NodeKind) (label : Label) :
    Sound x (d.withNode kind label) := by
  have hd := h.numbered
  have hg : Grows (d.fresh kind label) d (d.withNode kind label) := Grows.withNode hd _ _
  have hne : ∀ k, d.graph.Has k → k ≠ d.fresh kind label :=
    fun k hk e => Draft.fresh_not_has hd (e ▸ hk)
  exact
    { numbered := hd.addNode _ _ _
      exit := h.exit
      exit_kind := h.exit_kind
      has_exit := hg.has h.has_exit
      exit_sink := (hg.outgoing x h.has_exit (hne x h.has_exit)).trans h.exit_sink
      loops := fun l hl => (h.loops l hl).grows hg (hne _ (h.loops l hl).has_exit).symm }

theorem Sound.withJoin (h : Sound x d) (label : String) :
    Placed x d (d.fresh .join label) (d.withNode .join label) := by
  have hd := h.numbered
  refine ⟨.of_new h (h.withNode .join label) rfl (Draft.has_fresh_withNode hd) (.inl rfl)
    nofun (Draft.fresh_not_has hd), ?_, Draft.fresh_not_has hd, rfl⟩
  rw [Draft.outgoing_withNode hd]
  exact Draft.outgoing_fresh hd

theorem At.withNode (h : At x d n) (kind : NodeKind) (label : Label) :
    At x (d.withNode kind label) n where
  sound := h.sound.withNode kind label
  footing :=
    have hg : Grows n d (d.withNode kind label) := Grows.withNode h.sound.numbered _ _
    ⟨hg.has h.footing.has, h.footing.rooted.grows hg, h.footing.not_exit⟩
  ne_loop := h.ne_loop

/-- The flow can stand where it could before a loop was opened, except at the exit of the loop. -/
theorem At.openLoop {l : Loop} (h : At x d n) (hl : l.Open d.graph) (hn : n ≠ l.exit) :
    At x (d.withLoops (l :: d.loops)) n where
  sound := h.sound.openLoop hl
  footing := ⟨h.footing.has, h.footing.rooted, h.footing.not_exit⟩
  ne_loop := by
    intro k hk
    rcases List.mem_cons.1 hk with rfl | hk
    · exact hn
    · exact h.ne_loop k hk

/-! ## Drawn statements -/

/-- A run from `c` that ends where the same loops are open and the flow goes on from `r`. -/
structure Drawn (m : Manner) (x c : Node) (d : Draft) (r : Option Node) (d' : Draft) : Prop where
  run : Run m x c d d'
  loops : d'.loops = d.loops
  finish : ∀ n, r = some n → At x d' n ∧ (n = c ∨ ¬ d.graph.Has n)

theorem Drawn.refl (hc : At x d c) : Drawn m x c d (some c) d :=
  ⟨.refl, rfl, fun _ h => Option.some.inj h ▸ ⟨hc, .inl rfl⟩⟩

theorem Drawn.trans {r : Option Node} (hc : At x d c) (h₁ : Drawn m x c d (some n) d₁)
    (h₂ : Drawn m x n d₁ r d') : Drawn m x c d r d' where
  run := h₁.run.trans hc.sound.numbered hc.sound.has_exit h₂.run (h₁.finish n rfl).2
  loops := h₂.loops.trans h₁.loops
  finish := by
    intro k hk
    obtain ⟨h, hk⟩ := h₂.finish k hk
    refine ⟨h, ?_⟩
    rcases hk with rfl | hk
    · exact (h₁.finish k rfl).2
    · exact .inr fun h => hk ((hc.growsOf h₁.run).has h)

theorem Drawn.grown {kind : NodeKind} {label : Label} {edgeLabel : String} {edge : EdgeKind} (hc : At x d c)
    (hf : m.free (d.graph.outgoing c) c (d.fresh kind label)) (hk : kind ≠ .fork)
    (he : kind ≠ .exit) (hj : edge ≠ .jump) :
    Drawn m x c d (some (d.fresh kind label)) (d.grown c kind label edge edgeLabel) where
  run := .one (.grow hc.footing hf hk (fun h => absurd h he) hj)
  loops := rfl
  finish := by
    rintro _ ⟨⟩
    have hp := hc.grown kind label edge edgeLabel he
    exact ⟨hp.stands, .inr hp.new⟩

/-! ## Joining -/

/-- Places where the flow can stand, all to be linked to one join that leads nowhere yet. -/
structure Joinable (m : Manner) (x : Node) (d : Draft) (ends : List Node) (t : Node) : Prop where
  stands : ∀ n ∈ ends, At x d n
  free : ∀ n ∈ ends, m.free (d.graph.outgoing n) n t
  nodup : ends.Nodup
  has : d.graph.Has t
  kind : t.kind = .join
  sink : d.graph.outgoing t = []
  notMem : t ∉ ends

theorem Draft.joined_loops (d : Draft) (ends : List Node) (t : Node) :
    (d.joined ends t).loops = d.loops := by
  induction ends generalizing d with
  | nil => rfl
  | cons n ends ih => exact ih _

section
variable {t k : Node} {ends : List Node}

theorem Joinable.move (h : Joinable m x d (n :: ends) t) :
    Move m x n d (d.withEdge n t .seq "") :=
  .link (h.stands n List.mem_cons_self).footing h.has
    (fun e => h.notMem (e ▸ List.mem_cons_self)) (.inl h.kind) h.sink (h.free n List.mem_cons_self) rfl

theorem Joinable.grows (h : Joinable m x d (n :: ends) t) :
    Grows n d (d.withEdge n t .seq "") :=
  (h.stands n List.mem_cons_self).growsOf (.one h.move)

theorem Joinable.keeps (h : Joinable m x d (n :: ends) t) (hk : At x d k) :
    At x (d.withEdge n t .seq "") k :=
  hk.run (h.stands n List.mem_cons_self) (.one h.move) rfl

theorem Joinable.tail (h : Joinable m x d (n :: ends) t) :
    Joinable m x (d.withEdge n t .seq "") ends t where
  stands := fun k hk => h.keeps (h.stands k (List.mem_cons_of_mem n hk))
  free := by
    intro k hk
    have hkn : k ≠ n := fun e => (List.nodup_cons.1 h.nodup).1 (e ▸ hk)
    rw [h.grows.outgoing k (h.stands k (List.mem_cons_of_mem n hk)).footing.has hkn]
    exact h.free k (List.mem_cons_of_mem n hk)
  nodup := (List.nodup_cons.1 h.nodup).2
  has := h.grows.has h.has
  kind := h.kind
  sink := (h.grows.outgoing t h.has fun e => h.notMem (e ▸ List.mem_cons_self)).trans h.sink
  notMem := fun e => h.notMem (List.mem_cons_of_mem n e)

theorem Joinable.run (h : Joinable m x d₁ ends t) (hr : Run m x c d d₁)
    (hs : ∀ n ∈ ends, n = c ∨ ¬ d.graph.Has n) : Run m x c d (d₁.joined ends t) := by
  induction ends generalizing d₁ with
  | nil => exact hr
  | cons n ends ih =>
    exact ih h.tail (.step hr h.move (hs n List.mem_cons_self))
      fun k hk => hs k (List.mem_cons_of_mem n hk)

theorem Joinable.at (h : Joinable m x d ends t) (hk : At x d k) : At x (d.joined ends t) k := by
  induction ends generalizing d with
  | nil => exact hk
  | cons n ends ih => exact ih h.tail (h.keeps hk)

theorem Joinable.outgoing (h : Joinable m x d ends t) (hk : d.graph.Has k) (hne : k ∉ ends) :
    (d.joined ends t).graph.outgoing k = d.graph.outgoing k := by
  induction ends generalizing d with
  | nil => rfl
  | cons n ends ih =>
    rw [List.mem_cons, not_or] at hne
    exact (ih h.tail (h.grows.has hk) hne.2).trans (h.grows.outgoing k hk hne.1)

end

theorem nodup_toList (r : Option Node) : r.toList.Nodup := by
  cases r <;> simp

theorem Drawn.join {label : String} {ends : List Node} (hc : At x d c) (hr : Run m x c d d₁)
    (hl : d₁.loops = d.loops) (he : ∀ n ∈ ends, At x d₁ n ∧
      m.free (d₁.graph.outgoing n) n (d₁.fresh .join label) ∧ (n = c ∨ ¬ d.graph.Has n))
    (hnd : ends.Nodup) :
    Joinable m x (d₁.withNode .join label) ends (d₁.fresh .join label) ∧
      Drawn m x c d (some (d₁.fresh .join label))
        ((d₁.withNode .join label).joined ends (d₁.fresh .join label)) := by
  have hs₁ := (hc.run hc hr hl).sound
  have hp := hs₁.withJoin label
  have hg : Grows c d₁ (d₁.withNode .join label) := Grows.withNode hs₁.numbered _ _
  have hne : ∀ n ∈ ends, n ≠ d₁.fresh .join label :=
    fun n hn e => hp.new (e ▸ (he n hn).1.footing.has)
  have hj : Joinable m x (d₁.withNode .join label) ends (d₁.fresh .join label) :=
    { stands := fun n hn => (he n hn).1.withNode .join label
      free := by
        intro n hn
        have hg' : Grows (d₁.fresh .join label) d₁ (d₁.withNode .join label) :=
          Grows.withNode hs₁.numbered _ _
        rw [hg'.outgoing n (he n hn).1.footing.has (hne n hn)]
        exact (he n hn).2.1
      nodup := hnd
      has := hp.stands.footing.has
      kind := rfl
      sink := hp.sink
      notMem := fun h => hne _ h rfl }
  refine ⟨hj, hj.run (.step hr (.join label) (.inl rfl)) fun n hn => (he n hn).2.2, ?_, ?_⟩
  · rw [Draft.joined_loops, ← hl]
    rfl
  · rintro _ ⟨⟩
    exact ⟨hj.at hp.stands, .inr fun h => hp.new ((hc.growsOf hr).has h)⟩

theorem Drawn.linkTo {t : Node} {edge : EdgeKind} {label : String}
    (h : Drawn m x c d (some t) d₁) (hk : t.kind = .join) (hs : d₁.graph.outgoing t = [])
    (hn : At x d₁ n) (hne : t ≠ n) (hf : m.free (d₁.graph.outgoing n) n t)
    (hb : Edge.isBack ⟨n.id, t.id, edge, label⟩ = false) (hsrc : n = c ∨ ¬ d.graph.Has n) :
    Drawn m x c d (some t) (d₁.withEdge n t edge label) where
  run := .step h.run (.link hn.footing (h.finish t rfl).1.footing.has hne (.inl hk) hs hf hb) hsrc
  loops := h.loops
  finish := by
    rintro _ ⟨⟩
    exact ⟨(h.finish t rfl).1.run hn
      (.one (.link (m := m) hn.footing (h.finish t rfl).1.footing.has hne (.inl hk) hs hf hb)) rfl,
      (h.finish t rfl).2⟩

theorem Drawn.linkExit {edge : EdgeKind} {label : String} (h : Drawn m x c d (some n) d₁)
    (hf : m.free (d₁.graph.outgoing n) n x)
    (hb : Edge.isBack ⟨n.id, x.id, edge, label⟩ = false) :
    Drawn m x c d (some n) (d₁.withEdge n x edge label) := by
  obtain ⟨hn, hsrc⟩ := h.finish n rfl
  have hlink : Move m x n d₁ (d₁.withEdge n x edge label) :=
    .link hn.footing hn.sound.has_exit hn.ne_exit.symm (.inr rfl) hn.sound.exit_sink hf hb
  refine ⟨.step h.run hlink hsrc, h.loops, ?_⟩
  rintro _ ⟨⟩
  exact ⟨hn.run hn (.one hlink) rfl, hsrc⟩

/-! ## Leaving a round of a loop -/

theorem Drawn.repeats {finish : Option Node} {l : Loop} {a : Unit}
    (h : Drawn m x c d finish d₁) (hl : l ∈ d.loops)
    (hf : ∀ n, finish = some n → m.free (d₁.graph.outgoing n) n l.header)
    (hy : (Drawing.repeatFrom finish l.header).Yields d₁ a d') :
    Run m x c d d' ∧ d'.loops = d.loops := by
  obtain ⟨-, rfl⟩ | ⟨n, hn, rfl⟩ := Drawing.yields_repeatFrom hy
  · exact ⟨h.run, h.loops⟩
  · obtain ⟨hat, hsrc⟩ := h.finish n hn
    have ho := hat.sound.loops l (h.loops ▸ hl)
    exact ⟨.step h.run (.back hat.footing ho.has_header ho.header_kind ho.header_linked (hf n hn) rfl)
      hsrc, h.loops⟩

/-- So does the way from the end of a suite to the exit of an open loop. -/
theorem Drawn.leaves {finish : Option Node} {l : Loop} {a : Unit}
    (h : Drawn m x c d finish d₁) (hl : l ∈ d.loops)
    (hf : ∀ n, finish = some n → m.free (d₁.graph.outgoing n) n l.exit)
    (hy : (Drawing.followFrom finish l.exit).Yields d₁ a d') :
    Run m x c d d' ∧ d'.loops = d.loops := by
  rw [Drawing.yields_followFrom] at hy
  subst hy
  cases finish with
  | none => exact ⟨h.run, h.loops⟩
  | some n =>
    obtain ⟨hat, hsrc⟩ := h.finish n rfl
    have hmem : l ∈ d₁.loops := h.loops ▸ hl
    have ho := hat.sound.loops l hmem
    exact ⟨.step h.run (.link hat.footing ho.has_exit (hat.ne_loop l hmem).symm (.inl ho.exit_kind)
      ho.exit_sink (hf n rfl) rfl) hsrc, h.loops⟩

theorem At.newLoop {h : Node} (hh : At x d h) (hk : h.kind = .fork ∨ h.kind = .join)
    (hu : ∃ u, d.graph.Linked u h.id) (label : String) :
    At x ((d.withNode .join label).withLoops (⟨h, d.fresh .join label⟩ :: d.loops)) h ∧
      Loop.Open (d.withNode .join label).graph ⟨h, d.fresh .join label⟩ := by
  have hp := hh.sound.withJoin label
  have hg : Grows h d (d.withNode .join label) := Grows.withNode hh.sound.numbered _ _
  have ho : Loop.Open (d.withNode .join label).graph ⟨h, d.fresh .join label⟩ :=
    { has_header := hg.has hh.footing.has
      header_kind := hk
      header_linked := hu.imp fun u hu => hg.linked _ _ hu
      has_exit := hp.stands.footing.has
      exit_kind := rfl
      exit_sink := hp.sink }
  have hne : h ≠ d.fresh .join label := fun e => hp.new (e ▸ hh.footing.has)
  exact ⟨(hh.withNode .join label).openLoop ho hne, ho⟩

/-- Closing the loop that a run left open; the flow goes on from its exit. -/
theorem Drawn.closeLoop {l : Loop} (hc : At x d c) (hr : Run m x c d d₁)
    (hl : d₁.loops = l :: d.loops) (hx : d₁.graph.Has l.exit) (hk : l.exit.kind = .join)
    (hnew : ¬ d.graph.Has l.exit) :
    Drawn m x c d (some l.exit) (d₁.withLoops d₁.loops.tail) := by
  have hr' : Run m x c d (d₁.withLoops d₁.loops.tail) := .step hr (.loops _) (.inl rfl)
  have hl' : (d₁.withLoops d₁.loops.tail).loops = d.loops := by
    rw [Draft.withLoops, hl, List.tail_cons]
  refine ⟨hr', hl', ?_⟩
  rintro _ ⟨⟩
  exact ⟨.of_new hc.sound (hc.run hc hr' hl').sound hl' hx (.inl hk) (by rw [hk]; nofun) hnew,
    .inr hnew⟩

theorem drawn_breakLoop (hc : At x d c)
    (hf : ∀ l ∈ d.loops, m.free (d.graph.outgoing c) c l.exit) :
    Drawn m x c d none (d.jumped c Loop.exit "break") := by
  unfold Draft.jumped
  split
  next => exact ⟨.refl, rfl, nofun⟩
  next l rest hl =>
    have hmem : l ∈ d.loops := hl ▸ List.mem_cons_self
    have ho := hc.sound.loops l hmem
    exact ⟨.one (.link hc.footing ho.has_exit (hc.ne_loop l hmem).symm (.inl ho.exit_kind)
      ho.exit_sink (hf l hmem) rfl), rfl, nofun⟩

theorem drawn_continueLoop (hc : At x d c)
    (hf : ∀ l ∈ d.loops, m.free (d.graph.outgoing c) c l.header) :
    Drawn m x c d none (d.jumped c Loop.header "continue") := by
  unfold Draft.jumped
  split
  next => exact ⟨.refl, rfl, nofun⟩
  next l rest hl =>
    have hmem : l ∈ d.loops := hl ▸ List.mem_cons_self
    have ho := hc.sound.loops l hmem
    exact ⟨.one (.back hc.footing ho.has_header ho.header_kind ho.header_linked (hf l hmem) rfl), rfl,
      nofun⟩

end

end Workbench.Flow
