import Workbench.Proofs.Flow.Store
import Workbench.Proofs.Flow.Yielding

/-!
# Patches

What a step of drawing may add to a draft without regard to the rest of the graph: new nodes, and
edges from a given node or a new one to a new one, to the end of the function or to a place of the loop
around the step. A patch leaves the nodes that were there where they were, as long as no node stands
under a name that is still to be given out.
-/

namespace Workbench.Flow

namespace Graph

/-! ## Places of nodes -/

section
variable {g : Graph} {n m : Node} {e : Edge} {i : Nat} {id : String}

def Holds (g : Graph) (i : Nat) (id : String) (n : Node) : Prop := g.vertices[i]? = some ⟨id, some n⟩

theorem Holds.mem (h : g.Holds i id n) : ⟨id, some n⟩ ∈ g.vertices := List.mem_of_getElem? h

theorem Holds.put (h : g.Holds i id m) (hid : id ≠ n.id) : (g.put n).Holds i id m := by
  unfold Holds at *
  unfold Graph.put
  split
  · simp [h, hid]
  · exact List.getElem?_append_left (List.getElem?_eq_some_iff.1 h).1 ▸ h

theorem Holds.touch (h : g.Holds i id n) (s : String) : (g.touch s).Holds i id n := by
  unfold Graph.touch
  split
  · exact h
  · exact (List.getElem?_append_left (List.getElem?_eq_some_iff.1 h).1).trans h

theorem vertices_addEdge_eq (g : Graph) (e : Edge) :
    (g.addEdge e).vertices = ((g.touch e.source).touch e.target).vertices := by
  unfold Graph.addEdge
  dsimp only
  split <;> rfl

theorem Holds.addEdge (h : g.Holds i id n) (e : Edge) : (g.addEdge e).Holds i id n := by
  unfold Holds
  rw [vertices_addEdge_eq]
  exact (h.touch e.source).touch e.target

theorem mem_of_mem_touch {s : String} (h : ⟨id, some n⟩ ∈ (g.touch s).vertices) :
    ⟨id, some n⟩ ∈ g.vertices := by
  unfold touch at h
  split at h
  · exact h
  · simpa using h

theorem mem_of_mem_addEdge (h : ⟨id, some n⟩ ∈ (g.addEdge e).vertices) :
    ⟨id, some n⟩ ∈ g.vertices := by
  rw [vertices_addEdge_eq] at h
  exact mem_of_mem_touch (mem_of_mem_touch h)

theorem has_put (g : Graph) (n : Node) : (g.put n).Has n := by
  unfold Has put
  split
  next h =>
    obtain ⟨v, hv, hid⟩ := List.any_eq_true.1 h
    exact List.mem_map.2 ⟨v, hv, by rw [if_pos hid, beq_iff_eq.1 hid]⟩
  · simp

theorem Has.addEdge (h : g.Has n) (e : Edge) : (g.addEdge e).Has n := by
  obtain ⟨i, hi⟩ := List.mem_iff_getElem?.1 h
  exact (Holds.addEdge (i := i) hi e).mem

theorem Has.put (h : g.Has m) (hid : m.id ≠ n.id) : (g.put n).Has m := by
  obtain ⟨i, hi⟩ := List.mem_iff_getElem?.1 h
  exact (Holds.put (i := i) hi hid).mem

/-! ## Names to come -/

def Unspent (g : Graph) : Prop :=
  ∀ id n, ⟨id, some n⟩ ∈ g.vertices → ∀ kind i, g.counter < i → id ≠ nodeId kind i

/-- It is so in every graph that numbers its nodes itself, also after merging. -/
theorem Settled.unspent (hg : g.Settled) : g.Unspent := by
  rintro id n hn kind i hi rfl
  exact hg.nodeId_not_mem kind hi (List.mem_map_of_mem hn)

theorem Unspent.addEdge (hg : g.Unspent) (e : Edge) : (g.addEdge e).Unspent := by
  intro id n hn kind i hi
  rw [counter_addEdge] at hi
  exact hg id n (mem_of_mem_addEdge hn) kind i hi

theorem Unspent.addNode (hg : g.Unspent) (kind : NodeKind) (label : Label) (description : Value) :
    (g.addNode kind label description).2.Unspent := by
  intro id n hn k i hi hid
  have hcounter : (g.addNode kind label description).2.counter = g.counter + 1 := counter_put _ _
  rw [hcounter] at hi
  rcases mem_vertices_put hn with hn | hn
  · exact hg id n hn k i (by omega) hid
  · obtain ⟨-, rfl⟩ := nodeId_inj (i := g.counter + 1) ((congrArg Vertex.id hn).symm.trans hid)
    omega

theorem Unspent.holds_addNode (hg : g.Unspent) (h : g.Holds i id n) (kind : NodeKind)
    (label : Label) (description : Value) :
    (g.addNode kind label description).2.Holds i id n :=
  Holds.put (g := { g with counter := g.counter + 1 }) h
    (hg id n h.mem kind (g.counter + 1) (by omega))

theorem Unspent.node?_eq_none (hg : g.Unspent) (kind : NodeKind) (hi : g.counter < i) :
    g.node? (nodeId kind i) = none := by
  unfold node? vertex?
  cases hf : g.vertices.find? fun v => v.id == nodeId kind i with
  | none => rfl
  | some v =>
    have hid : v.id = nodeId kind i := by simpa using List.find?_some hf
    cases hn : v.node? with
    | none => exact hn
    | some n =>
      refine absurd hid (hg v.id n ?_ kind i hi)
      rw [← hn]
      exact List.mem_of_find?_eq_some hf

end

end Graph

/-! ## Patches -/

def Draft.Outlet (d : Draft) (v : Node) : Prop :=
  d.exit = some v ∨ ∃ l, d.loops.head? = some l ∧ (v = l.header ∨ v = l.exit)

section
variable (c : Node) (d : Draft) (ns : List Node)

def MayLeave (u : Node) : Prop := u = c ∨ u ∈ ns

def MayReach (v : Node) : Prop := v ∈ ns ∨ d.Outlet v

/-- The loop in which the flow stands offers nothing but what may be reached. -/
def Sheltered (loops : List Loop) : Prop :=
  ∀ l, loops.head? = some l → MayReach d ns l.header ∧ MayReach d ns l.exit

/-- A draft that came from `d` by a patch behind `c`, with the nodes that came in. -/
inductive Patch : List Node → Draft → Prop
  | refl : Patch [] d
  | node {ns d'} (kind : NodeKind) (label : Label) : Patch ns d' →
      Patch (d'.fresh kind label :: ns) (d'.withNode kind label)
  | edge {ns d' u v} (kind : EdgeKind) (label : String) : MayLeave c ns u → MayReach d ns v →
      Patch ns d' → Patch ns (d'.withEdge u v kind label)
  | loops {ns d'} (l : List Loop) : Patch ns d' → Patch ns (d'.withLoops l)

end

section
variable {c n u v : Node} {d d' : Draft} {ns ms : List Node} {ls : List Loop}

theorem MayLeave.mono (h : MayLeave c ns u) (hsub : ns ⊆ ms) : MayLeave c ms u :=
  h.imp_right fun hu => hsub hu

theorem MayLeave.cons (h : MayLeave c ns u) : MayLeave c (n :: ns) u :=
  h.mono (List.subset_cons_self n ns)

theorem MayReach.mono (h : MayReach d ns v) (hsub : ns ⊆ ms) : MayReach d ms v :=
  h.imp_left fun hv => hsub hv

theorem Sheltered.mono (h : Sheltered d ns ls) (hsub : ns ⊆ ms) : Sheltered d ms ls :=
  fun l hl => ⟨(h l hl).1.mono hsub, (h l hl).2.mono hsub⟩

theorem Sheltered.cons (h : Sheltered d ns ls) : Sheltered d (n :: ns) ls :=
  h.mono (List.subset_cons_self n ns)

theorem sheltered_self (d : Draft) : Sheltered d [] d.loops :=
  fun l hl => ⟨.inr (.inr ⟨l, hl, .inl rfl⟩), .inr (.inr ⟨l, hl, .inr rfl⟩)⟩

theorem sheltered_cons {header exit : Node} (hheader : header ∈ ns) (hexit : exit ∈ ns) :
    Sheltered d ns (⟨header, exit⟩ :: ls) := by
  intro l hl
  obtain rfl := Option.some.inj hl
  exact ⟨.inl hheader, .inl hexit⟩

theorem Patch.exit (h : Patch c d ns d') : d'.exit = d.exit := by
  induction h with
  | refl => rfl
  | node _ _ _ ih => exact ih
  | edge _ _ _ _ _ ih => exact ih
  | loops _ _ ih => exact ih

end

/-! ## What a patch leaves alone -/

def Draft.Gains (d d' : Draft) (n : Node) : Prop := d.graph.node? n.id = none ∧ d'.graph.Has n

section
variable {c n : Node} {d d' : Draft} {ns : List Node} {i : Nat} {id : String}

theorem Patch.counter_le (h : Patch c d ns d') : d.graph.counter ≤ d'.graph.counter := by
  induction h with
  | refl => exact Nat.le_refl _
  | @node _ d' kind label _ ih =>
    have hcounter : (d'.withNode kind label).graph.counter = d'.graph.counter + 1 :=
      Graph.counter_put _ _
    omega
  | edge _ _ _ _ _ ih => exact ih.trans_eq (Graph.counter_addEdge _ _).symm
  | loops _ _ ih => exact ih

theorem Patch.unspent (h : Patch c d ns d') (hd : d.graph.Unspent) : d'.graph.Unspent := by
  induction h with
  | refl => exact hd
  | node kind label _ ih => exact ih.addNode kind label _
  | edge _ _ _ _ _ ih => exact ih.addEdge _
  | loops _ _ ih => exact ih

theorem Patch.holds (h : Patch c d ns d') (hd : d.graph.Unspent) (hn : d.graph.Holds i id n) :
    d'.graph.Holds i id n := by
  induction h with
  | refl => exact hn
  | node kind label hp ih => exact (hp.unspent hd).holds_addNode ih kind label _
  | edge _ _ _ _ _ ih => exact ih.addEdge _
  | loops _ _ ih => exact ih

/-- The nodes that came in stand in the graph, and their numbers are new. -/
theorem Patch.has (h : Patch c d ns d') (hd : d.graph.Unspent) (hn : n ∈ ns) :
    d'.graph.Has n ∧ ∃ kind i, d.graph.counter < i ∧ n.id = nodeId kind i := by
  induction h with
  | refl => cases hn
  | @node _ d' kind label hp ih =>
    rcases List.mem_cons.1 hn with rfl | hn
    · exact ⟨Graph.has_put _ _, kind, d'.graph.counter + 1, Nat.lt_succ_of_le hp.counter_le, rfl⟩
    · obtain ⟨hhas, hnumber⟩ := ih hn
      refine ⟨Graph.Has.put hhas ?_, hnumber⟩
      exact hp.unspent hd n.id n hhas kind _ (Nat.lt_succ_self _)
  | edge _ _ _ _ _ ih => exact ⟨(ih hn).1.addEdge _, (ih hn).2⟩
  | loops _ _ ih => exact ih hn

theorem Patch.gains (h : Patch c d ns d') (hd : d.graph.Unspent) (hn : n ∈ ns) : d.Gains d' n := by
  obtain ⟨hhas, kind, i, hi, hid⟩ := h.has hd hn
  refine ⟨?_, hhas⟩
  rw [hid]
  exact hd.node?_eq_none kind hi

/-- The strokes of a patch run as they may, and no edge of the graph changes otherwise. -/
theorem Patch.strokes (h : Patch c d ns d') : ∃ added, d'.strokes = d.strokes ++ added ∧
    (∀ e ∈ added, (∃ u, MayLeave c ns u ∧ e.source = u.id) ∧ ∃ v, MayReach d ns v ∧ e.target = v.id) ∧
    (∀ e ∈ d'.graph.edges, e ∈ d.graph.edges ∨ e ∈ added) ∧
    ∀ e ∈ d.graph.edges, e ∈ d'.graph.edges ∨
      ∃ s ∈ added, s.source = e.source ∧ s.target = e.target := by
  induction h with
  | refl => exact ⟨[], by simp, by simp, fun e he => .inl he, fun e he => .inl he⟩
  | @node ns d' kind label _ ih =>
    obtain ⟨added, hs, hends, hedges, hold⟩ := ih
    have heq : (d'.withNode kind label).graph.edges = d'.graph.edges := Graph.edges_put _ _
    refine ⟨added, hs, fun e he => ?_, ?_, ?_⟩
    · obtain ⟨⟨u, hu, hsource⟩, v, hv, htarget⟩ := hends e he
      exact ⟨⟨u, hu.cons, hsource⟩, v, hv.mono (List.subset_cons_self _ ns), htarget⟩
    · rwa [heq]
    · rwa [heq]
  | @edge ns d' u v kind label hu hv _ ih =>
    obtain ⟨added, hs, hends, hedges, hold⟩ := ih
    refine ⟨added ++ [⟨u.id, v.id, kind, label⟩], ?_, fun e he => ?_, fun e he => ?_, fun e he => ?_⟩
    · rw [← List.append_assoc, ← hs]
      rfl
    · rcases List.mem_append.1 he with he | he
      · exact hends e he
      · obtain rfl := List.mem_singleton.1 he
        exact ⟨⟨u, hu, rfl⟩, v, hv, rfl⟩
    · rcases Graph.mem_addEdge.1 he with rfl | ⟨he, -⟩
      · exact .inr (List.mem_append_right added List.mem_cons_self)
      · exact (hedges e he).imp_right fun he => List.mem_append_left _ he
    · by_cases hends : e.source = u.id ∧ e.target = v.id
      · exact .inr ⟨_, List.mem_append_right added List.mem_cons_self, hends.1.symm, hends.2.symm⟩
      · rcases hold e he with he | ⟨s, hs, hse⟩
        · exact .inl (Graph.mem_addEdge.2 (.inr ⟨he, hends⟩))
        · exact .inr ⟨s, List.mem_append_left _ hs, hse⟩
  | loops _ _ ih => exact ih

end

/-! ## Steps that go on with a patch -/

namespace Drawing

section
variable {α β : Type} {c n u v : Node} {d : Draft} {ns : List Node} {ls ls' ls'' : List Loop}
  {kind : NodeKind} {label : Label} {Q : List Node → α → Prop} {R : List Node → β → Prop}

/-- Whenever the step succeeds behind a patch with the nodes `ns`, while the loops `ls` are open, it
goes on with the patch. Then the loops `ls'` are open, and `Q` holds of the nodes and of the answer. -/
def Patches (c : Node) (d : Draft) (ns : List Node) (ls : List Loop) (x : Drawing α)
    (ls' : List Loop) (Q : List Node → α → Prop) : Prop :=
  ∀ d₁ a d₂, x.Yields d₁ a d₂ → Patch c d ns d₁ → d₁.loops = ls →
    ∃ ms, ns ⊆ ms ∧ Patch c d ms d₂ ∧ d₂.loops = ls' ∧ Q ms a

abbrev Stays (c : Node) (d : Draft) (ns : List Node) (ls : List Loop) (x : Drawing α)
    (ls' : List Loop) : Prop := Patches c d ns ls x ls' fun ms _ => ms = ns

abbrev Adds (c : Node) (d : Draft) (ns : List Node) (ls : List Loop) (x : Drawing Node)
    (kind : NodeKind) : Prop := Patches c d ns ls x ls fun ms n => ms = n :: ns ∧ n.kind = kind

namespace Patches

theorem pure {a : α} (h : Q ns a) : Patches c d ns ls (Pure.pure a) ls Q := by
  intro d₁ b d₂ hy hp hl
  obtain ⟨rfl, rfl⟩ := yields_pure.1 hy
  exact ⟨ns, List.Subset.refl ns, hp, hl, h⟩

theorem throw (e : DrawFault) : Patches c d ns ls (throw e) ls' Q :=
  fun _ _ _ hy => absurd hy not_yields_throw

theorem bind {x : Drawing α} {f : α → Drawing β} (hx : Patches c d ns ls x ls' Q)
    (hf : ∀ ms a, ns ⊆ ms → Q ms a → Patches c d ms ls' (f a) ls'' R) :
    Patches c d ns ls (x >>= f) ls'' R := by
  intro d₁ b d₃ hy hp hl
  obtain ⟨a, d₂, h₁, h₂⟩ := yields_bind.1 hy
  obtain ⟨ms, hms, hp₂, hl₂, ha⟩ := hx d₁ a d₂ h₁ hp hl
  obtain ⟨ms', hms', hp₃, hl₃, hb⟩ := hf ms a hms ha d₂ b d₃ h₂ hp₂ hl₂
  exact ⟨ms', List.Subset.trans hms hms', hp₃, hl₃, hb⟩

theorem imp {R : List Node → α → Prop} {x : Drawing α} (hx : Patches c d ns ls x ls' Q)
    (hQ : ∀ ms a, ns ⊆ ms → Q ms a → R ms a) : Patches c d ns ls x ls' R := by
  intro d₁ a d₂ hy hp hl
  obtain ⟨ms, hms, hp₂, hl₂, ha⟩ := hx d₁ a d₂ hy hp hl
  exact ⟨ms, hms, hp₂, hl₂, hQ ms a hms ha⟩

theorem next {x : Drawing α} {f : α → Drawing β} (hx : Stays c d ns ls x ls')
    (hf : ∀ a, Patches c d ns ls' (f a) ls'' R) : Patches c d ns ls (x >>= f) ls'' R :=
  bind hx fun _ a _ hms => hms ▸ hf a

theorem behind {x : Drawing Node} {f : Node → Drawing β} (hx : Adds c d ns ls x kind)
    (hf : ∀ n : Node, n.kind = kind → Patches c d (n :: ns) ls (f n) ls' R) :
    Patches c d ns ls (x >>= f) ls' R :=
  bind hx fun _ n _ hms => hms.1 ▸ hf n hms.2

/-! ### Elementary steps -/

theorem readable {text : Tree.Excerpt} : Stays c d ns ls (readable text) ls := by
  intro d₁ s d₂ hy hp hl
  obtain ⟨-, rfl⟩ := yields_readable.1 hy
  exact ⟨ns, List.Subset.refl ns, hp, hl, rfl⟩

theorem addNode : Adds c d ns ls (addNode kind label) kind := by
  intro d₁ n d₂ hy hp hl
  obtain ⟨rfl, rfl⟩ := yields_addNode.1 hy
  exact ⟨_, List.subset_cons_self _ ns, hp.node kind label, hl, rfl, rfl⟩

theorem addEdge {edge : EdgeKind} {edgeLabel : String} (hu : MayLeave c ns u) (hv : MayReach d ns v) :
    Stays c d ns ls (addEdge u v edge edgeLabel) ls := by
  intro d₁ _ d₂ hy hp hl
  rw [yields_addEdge.1 hy]
  exact ⟨ns, List.Subset.refl ns, hp.edge edge edgeLabel hu hv, hl, rfl⟩

theorem openLoop {header exit : Node} :
    Stays c d ns ls (openLoop header exit) (⟨header, exit⟩ :: ls) := by
  intro d₁ _ d₂ hy hp hl
  rw [yields_openLoop.1 hy, ← hl]
  exact ⟨ns, List.Subset.refl ns, hp.loops _, rfl, rfl⟩

theorem closeLoop {l : Loop} : Stays c d ns (l :: ls) closeLoop ls := by
  intro d₁ _ d₂ hy hp hl
  rw [yields_closeLoop.1 hy, hl]
  exact ⟨ns, List.Subset.refl ns, hp.loops _, rfl, rfl⟩

theorem append (hu : MayLeave c ns u) : Adds c d ns ls (append u kind label) kind :=
  behind addNode fun _ hn => next (addEdge hu.cons (.inl List.mem_cons_self)) fun _ => pure ⟨rfl, hn⟩

theorem branch {edge : EdgeKind} {edgeLabel label : String} (hu : MayLeave c ns u) :
    Adds c d ns ls (branch u edge edgeLabel label) .virtual :=
  behind addNode fun _ hn => next (addEdge hu.cons (.inl List.mem_cons_self)) fun _ => pure ⟨rfl, hn⟩

theorem followFrom {finish : Option Node} (hu : ∀ k ∈ finish.toList, MayLeave c ns k)
    (hv : MayReach d ns v) : Stays c d ns ls (followFrom finish v) ls := by
  cases finish with
  | none => exact pure rfl
  | some k => exact addEdge (hu k List.mem_cons_self) hv

theorem repeatFrom {finish : Option Node} (hu : ∀ k ∈ finish.toList, MayLeave c ns k)
    (hv : MayReach d ns v) : Stays c d ns ls (repeatFrom finish v) ls := by
  cases finish with
  | none => exact pure rfl
  | some k => exact addEdge (hu k List.mem_cons_self) hv

theorem follows (hv : MayReach d ns v) : ∀ ends : List Node, (∀ k ∈ ends, MayLeave c ns k) →
    Stays c d ns ls (ends.forM (Drawing.follow · v)) ls
  | [], _ => pure rfl
  | k :: ends, hu => next (addEdge (hu k List.mem_cons_self) hv) fun _ =>
      follows hv ends fun m hm => hu m (List.mem_cons_of_mem k hm)

theorem functionExit : Patches c d ns ls functionExit ls fun ms x => ms = ns ∧ MayReach d ns x := by
  intro d₁ x d₂ hy hp hl
  obtain ⟨hx, rfl⟩ := yields_functionExit.1 hy
  exact ⟨ns, List.Subset.refl ns, hp, hl, rfl, .inr (.inl (hp.exit.symm.trans hx))⟩

theorem get : Patches c d ns ls (get : Drawing Draft) ls fun ms d₁ => ms = ns ∧ d₁.loops = ls ∧
    ∀ x, d₁.exit = some x → MayReach d ns x := by
  intro d₁ x d₂ hy hp hl
  obtain ⟨rfl, rfl⟩ := yields_get.1 hy
  exact ⟨ns, List.Subset.refl ns, hp, hl, rfl, hl,
    fun x hx => .inr (.inl (hp.exit.symm.trans hx))⟩

end Patches

end

/-! ### Where the flow goes on -/

def Onward (ns : List Node) (finish : Option Node) : Prop :=
  ∀ k, finish = some k → k ∈ ns ∧ k.kind ≠ .exit

/-- The flow is still where it was, or goes on from a new node that is no exit, if at all. -/
def Along (n : Node) (ns : List Node) (finish : Option Node) : Prop :=
  ∀ k, finish = some k → k = n ∨ k ∈ ns ∧ k.kind ≠ .exit

section
variable {c n : Node} {d : Draft} {ns ms : List Node} {ls : List Loop} {finish : Option Node}

theorem onward_none (ns : List Node) : Onward ns none := by simp [Onward]

theorem onward_some {kind : NodeKind} (hn : n ∈ ns) (hkind : n.kind = kind) (hk : kind ≠ .exit) :
    Onward ns (some n) := by
  intro k hfinish
  obtain rfl := Option.some.inj hfinish
  exact ⟨hn, hkind ▸ hk⟩

theorem onward_new {kind : NodeKind} (hkind : n.kind = kind) (hk : kind ≠ .exit) :
    Onward (n :: ns) (some n) :=
  onward_some List.mem_cons_self hkind hk

theorem Onward.along (h : Onward ns finish) (n : Node) : Along n ns finish :=
  fun k hk => .inr (h k hk)

theorem Along.onward (h : Along n ns finish) (hn : n ∈ ns) {kind : NodeKind} (hkind : n.kind = kind)
    (hk : kind ≠ .exit) : Onward ns finish := by
  intro k hfinish
  rcases h k hfinish with rfl | h
  · exact ⟨hn, hkind ▸ hk⟩
  · exact h

theorem Along.mayLeave (h : Along n ns finish) (hn : MayLeave c ns n) :
    ∀ k ∈ finish.toList, MayLeave c ns k := by
  intro k hk
  rcases h k (Option.mem_toList.1 hk) with rfl | h
  · exact hn
  · exact .inr h.1

/-- Wherever the loop around it offers nothing but what may be reached, the step goes on with the
patch, and the flow goes on as told for the node where it was. -/
def Fits (c : Node) (d : Draft) (onward : Node → List Node → Option Node → Prop)
    (step : Node → Drawing (Option Node)) : Prop :=
  ∀ n ns ls, MayLeave c ns n → Sheltered d ns ls → Patches c d ns ls (step n) ls (onward n)

theorem fits_append {kind : NodeKind} {label : Tree.Excerpt} (hk : kind ≠ .exit) :
    Fits c d (fun _ => Onward) fun n => do return some (← append n kind (← readable label)) :=
  fun _ _ _ hn _ => .next .readable fun _ => .behind (.append hn) fun _ hkind =>
    .pure (onward_new hkind hk)

theorem jump_patches {place : Loop → Node} (hn : MayLeave c ns n)
    (hplace : ∀ l, ls.head? = some l → MayReach d ns (place l)) {label : String} :
    Patches c d ns ls (do
      match (← get).loops with
      | [] => return none
      | l :: _ => addEdge n (place l) .jump label; return none) ls Onward := by
  refine .bind .get fun ms d₁ _ h => ?_
  obtain ⟨rfl, hl, -⟩ := h
  rw [hl]
  cases ls with
  | nil => exact .pure (onward_none ms)
  | cons l ls => exact .next (.addEdge hn (hplace l rfl)) fun _ => .pure (onward_none ms)

theorem fits_breakLoop : Fits c d (fun _ => Onward) breakLoop :=
  fun _ _ _ hn hs => jump_patches hn fun l hl => (hs l hl).2

theorem fits_continueLoop : Fits c d (fun _ => Onward) continueLoop :=
  fun _ _ _ hn hs => jump_patches hn fun l hl => (hs l hl).1

end

end Drawing

end Workbench.Flow
