import Workbench.Proofs.Flow.Braced.Visits
import Mathlib.Data.List.Basic

/-!
# The two sides of a condition

A side of a condition is drawn behind a node of its own, with an edge that tells whether the condition
holds. Without statements it is not drawn, and the flow stays at the fork. At the join the false side
is made up for by an edge of its kind, but the true side by one of plain sequence, which the other
edge takes the place of if both sides are empty.
-/

namespace Workbench.Flow

/-! ## Edges from one node -/

namespace Graph

variable {g : Graph} {e : Edge} {n : Node}

theorem outgoing_addEdge_of_not_linked (h : ¬ g.Linked e.source e.target) (he : e.source = n.id) :
    (g.addEdge e).outgoing n = g.outgoing n ++ [e] := by
  unfold outgoing
  rw [edges_addEdge_of_not_linked h, List.filter_append]
  simp [he]

theorem outgoing_addEdge_of_linked (h : g.Linked e.source e.target) (he : e.source = n.id) :
    (g.addEdge e).outgoing n = (g.outgoing n).map fun x => if x.target = e.target then e else x := by
  obtain ⟨y, hy, hys, hyt⟩ := h
  have hany : (g.edges.any fun x => x.source == e.source && x.target == e.target) = true :=
    List.any_eq_true.2 ⟨y, hy, by simp [hys, hyt]⟩
  unfold outgoing
  simp only [addEdge, touch_edges, hany, if_true]
  induction g.edges with
  | nil => rfl
  | cons x l ih =>
    rw [List.map_cons, List.filter_cons, List.filter_cons, ih]
    by_cases hs : x.source = n.id <;> by_cases ht : x.target = e.target <;> simp [hs, ht, he]

end Graph

theorem Draft.outgoing_grown {d : Draft} {c : Node} {kind : NodeKind} {label : Label} {edgeLabel : String}
    {edge : EdgeKind} (hd : d.graph.Numbered) :
    (d.grown c kind label edge edgeLabel).graph.outgoing c =
      d.graph.outgoing c ++ [⟨c.id, (d.fresh kind label).id, edge, edgeLabel⟩] := by
  unfold Graph.outgoing
  rw [Draft.edges_grown hd, List.filter_append]
  simp

def Graph.ways (g : Graph) (n : Node) : List EdgeKind := (g.outgoing n).map Edge.kind

namespace Draft

variable {d : Draft} {n u v : Node} {kind kind' : EdgeKind} {label label' : String}

theorem ways_withEdge_of_ne (h : u.id ≠ n.id) : (d.withEdge u v kind label).graph.ways n = d.graph.ways n := by
  unfold Graph.ways withEdge
  rw [Graph.outgoing_addEdge_of_ne h]

theorem ways_withEdge (h : ¬ d.graph.Linked n.id v.id) :
    (d.withEdge n v kind label).graph.ways n = d.graph.ways n ++ [kind] := by
  unfold Graph.ways withEdge
  rw [Graph.outgoing_addEdge_of_not_linked h rfl, List.map_append]
  rfl

theorem ways_withEdge_twice (h : ¬ d.graph.Linked n.id v.id) :
    ((d.withEdge n v kind label).withEdge n v kind' label').graph.ways n = d.graph.ways n ++ [kind'] := by
  have hlinked : (d.withEdge n v kind label).graph.Linked n.id v.id :=
    linked_withEdge.2 (.inr ⟨rfl, rfl⟩)
  have hold : ∀ e ∈ d.graph.outgoing n, e.target ≠ v.id := fun e he ht =>
    h (Graph.linked_iff_mem_outgoing.2 ⟨e, he, ht⟩)
  unfold Graph.ways
  rw [withEdge, Graph.outgoing_addEdge_of_linked hlinked rfl, withEdge,
    Graph.outgoing_addEdge_of_not_linked h rfl]
  simp only [List.map_append, List.map_map, List.map_cons, List.map_nil, if_true]
  congr 1
  exact List.map_congr_left fun e he => congrArg Edge.kind (if_neg (hold e he))

end Draft

namespace Braced

open Drawing

section
variable {x c fork n : Node} {d d₁ d' : Draft} {r yes no : Option Node} {b : Branch} {l : List Statement}
  {label : String} {kind : EdgeKind}

/-- A side without statements ends at the fork; any other one adds an edge to it. -/
theorem ways_side (hf : At x d fork) (hk : kind ≠ .jump) (hb : b.list? = some l)
    (h : (b.draw fork kind label).Yields d r d₁) : (r = some fork ↔ l.isEmpty) ∧
      d₁.graph.ways fork = d.graph.ways fork ++ if l.isEmpty then [] else [kind] := by
  cases l with
  | nil =>
    match b, hb with
    | .block (.braces []), _ =>
      simp only [Branch.draw, yields_pure] at h
      obtain ⟨rfl, rfl⟩ := h
      simp
  | cons s rest =>
    rw [yields_side hb (List.cons_ne_nil s rest)] at h
    have hgrow := drawn_branch hf hk label label
    have hstart := (hgrow.finish _ rfl).1
    have hbody := drawAll_lays x (s :: rest) _ _ _ _ hstart h
    have hold := (hf.growsOf hgrow.run).has hf.footing.has
    have hne : fork ≠ d.fresh .virtual label := fun e =>
      Draft.fresh_not_has hf.sound.numbered (e ▸ hf.footing.has)
    refine ⟨iff_of_false (fun hr => ?_) (by simp), ?_⟩
    · exact ((hbody.finish fork hr).2).elim hne fun hnew => hnew hold
    · unfold Graph.ways
      rw [(hstart.growsOf hbody.run).outgoing fork hold hne, Draft.outgoing_grown hf.sound.numbered]
      simp

theorem not_linked_join (hd : d.graph.Numbered) :
    ¬ (d.withNode .join label).graph.Linked fork.id (d.fresh .join label).id :=
  mt (Draft.linked_withNode hd).1 (Draft.not_linked_fresh hd fork.id)

theorem ways_withNode (hd : d.graph.Numbered) {kind : NodeKind} :
    (d.withNode kind label).graph.ways fork = d.graph.ways fork := by
  unfold Graph.ways
  rw [Draft.outgoing_withNode hd]

/-- An end of the true side counts at the fork only if it is the fork. -/
theorem ways_joined_of_ne (hf : At x d fork) (hyes : ∀ n, yes = some n → d.graph.Has n)
    (hne : yes ≠ some fork) :
    let met := (d.withNode .join label).joined yes.toList (d.fresh .join label)
    met.graph.ways fork = d.graph.ways fork ∧
      ¬ met.graph.Linked fork.id (d.fresh .join label).id := by
  have hd := hf.sound.numbered
  cases yes with
  | none => exact ⟨ways_withNode hd, not_linked_join hd⟩
  | some n =>
    have hn : n.id ≠ fork.id := fun e =>
      hne (congrArg some (hd.eq_of_id (hyes n rfl) hf.footing.has e))
    refine ⟨(Draft.ways_withEdge_of_ne hn).trans (ways_withNode hd), fun hl => ?_⟩
    exact (Draft.linked_withEdge.1 hl).elim (not_linked_join hd) fun he => hn he.1.symm

/-- The edges from the fork to the join, for sides that ended there. -/
theorem ways_joinSides {emptyYes emptyNo : Bool} (hf : At x d fork)
    (hyes : ∀ n, yes = some n → d.graph.Has n) (hno : ∀ n, no = some n → d.graph.Has n)
    (hy : yes = some fork ↔ emptyYes) (hn : no = some fork ↔ emptyNo)
    (h : (joinSides fork yes no).Yields d r d') :
    d'.graph.ways fork = d.graph.ways fork ++
      if emptyNo then [.condFalse] else if emptyYes then [.seq] else [] := by
  have hd := hf.sound.numbered
  have htrue : ((d.withNode .join "fi").joined yes.toList (d.fresh .join "fi")).graph.ways fork =
      d.graph.ways fork ++ if emptyYes then [.seq] else [] := by
    cases emptyYes with
    | false => simpa using (ways_joined_of_ne hf hyes (by simpa using hy)).1
    | true =>
      obtain rfl := hy.2 rfl
      exact (Draft.ways_withEdge (not_linked_join hd)).trans (by rw [ways_withNode hd]; rfl)
  rw [yields_joinSides] at h
  split at h
  next =>
    obtain ⟨-, rfl⟩ := h
    cases no with
    | none =>
      obtain rfl : emptyNo = false := by simpa using hn
      exact htrue
    | some n =>
      cases emptyNo with
      | false =>
        have hne : n.id ≠ fork.id := fun e =>
          absurd (congrArg some (hd.eq_of_id (hno n rfl) hf.footing.has e)) (by simpa using hn)
        exact (Draft.ways_withEdge_of_ne hne).trans htrue
      | true =>
        obtain rfl := Option.some.inj (hn.2 rfl)
        have hkind : (falseEdge n n).1 = .condFalse := by simp [falseEdge]
        rw [← hkind]
        cases emptyYes with
        | false =>
          obtain ⟨hsame, hnone⟩ := ways_joined_of_ne hf hyes (by simpa using hy)
          exact (Draft.ways_withEdge hnone).trans (by rw [hsame]; rfl)
        | true =>
          obtain rfl := hy.2 rfl
          exact (Draft.ways_withEdge_twice (not_linked_join hd)).trans (by rw [ways_withNode hd]; rfl)
  next hgo =>
    obtain ⟨-, rfl⟩ := h
    obtain ⟨rfl, rfl⟩ : yes = none ∧ no = none := by simpa using hgo
    obtain rfl : emptyYes = false := by simpa using hy
    obtain rfl : emptyNo = false := by simpa using hn
    exact (List.append_nil _).symm

end

/-! ## Conditions in a function -/

def Branch.ofTree (source : Bytes) (w : Tree) : Branch :=
  if w.kind = "block" then .block (.ofTree source w) else .single (.ofTree source w)

section
variable {source : Bytes} {name kind : String} {start stop : Nat} {field : Option String}
  {children ws : List Tree}

theorem fillerOf_cons_of_pos (h : field = some name) :
    Tree.fillerOf name (.node kind start stop field children :: ws) =
      some (.node kind start stop field children) :=
  List.find?_cons_of_pos (by simp [Tree.field, h])

theorem fillerOf_cons_of_neg (h : field ≠ some name) :
    Tree.fillerOf name (.node kind start stop field children :: ws) = Tree.fillerOf name ws :=
  List.find?_cons_of_neg (by simp [Tree.field, h])

theorem branchAt_cons_of_pos (h : field = some name) :
    branchAt source name (.node kind start stop field children :: ws) =
      Branch.ofTree source (.node kind start stop field children) := by
  rw [branchAt, if_pos h]
  rfl

theorem branchAt_cons_of_neg (h : field ≠ some name) :
    branchAt source name (.node kind start stop field children :: ws) = branchAt source name ws := by
  rw [branchAt, if_neg h]

theorem alternativeAt_cons_of_pos (h : field = some "alternative") :
    alternativeAt source (.node kind start stop field children :: ws) =
      some (Branch.ofTree source (.node kind start stop field children)) := by
  rw [alternativeAt, if_pos h]
  exact (apply_ite some ..).symm

theorem alternativeAt_cons_of_neg (h : field ≠ some "alternative") :
    alternativeAt source (.node kind start stop field children :: ws) = alternativeAt source ws := by
  rw [alternativeAt, if_neg h]

end

theorem blockAt_eq (source : Bytes) (name : String) (siblings : List Tree) :
    blockAt source name siblings = (Tree.fillerOf name siblings).elim .missing (Block.ofTree source) := by
  induction siblings with
  | nil => rfl
  | cons w ws ih =>
    obtain ⟨kind, start, stop, field, children⟩ := w
    by_cases hf : field = some name
    · rw [blockAt, if_pos hf, fillerOf_cons_of_pos hf]
      rfl
    · rw [blockAt, if_neg hf, fillerOf_cons_of_neg hf, ih]

theorem branchAt_eq (source : Bytes) (name : String) (siblings : List Tree) :
    branchAt source name siblings =
      (Tree.fillerOf name siblings).elim (.block .missing) (Branch.ofTree source) := by
  induction siblings with
  | nil => rfl
  | cons w ws ih =>
    obtain ⟨kind, start, stop, field, children⟩ := w
    by_cases hf : field = some name
    · rw [branchAt_cons_of_pos hf, fillerOf_cons_of_pos hf, Option.elim_some]
    · rw [branchAt_cons_of_neg hf, fillerOf_cons_of_neg hf, ih]

theorem alternativeAt_eq (source : Bytes) (siblings : List Tree) :
    alternativeAt source siblings = (Tree.fillerOf "alternative" siblings).map (Branch.ofTree source) := by
  induction siblings with
  | nil => rfl
  | cons w ws ih =>
    obtain ⟨kind, start, stop, field, children⟩ := w
    by_cases hf : field = some "alternative"
    · rw [alternativeAt_cons_of_pos hf, fillerOf_cons_of_pos hf, Option.map_some]
    · rw [alternativeAt_cons_of_neg hf, fillerOf_cons_of_neg hf, ih]

theorem Statement.ofTree_cond {source : Bytes} {u : Tree} (hu : u.kind = "if_expression") :
    Statement.ofTree source u = .checked (questionMarks u)
      (.cond (headLabel "if " "" (Tree.fieldText source "condition" u.children))
        (branchAt source "consequence" u.children) (alternativeAt source u.children)) := by
  obtain ⟨kind, start, stop, field, children⟩ := u
  obtain rfl : kind = "if_expression" := hu
  rfl

/-- How a condition is drawn into a function: the checks for its question marks, its fork, its two
sides and their join. -/
structure Parted (source : Bytes) (u : Tree) (c : Node) (d D : Draft) where
  exit : Node
  -- the last of the checks, and the draft with all of them
  start : Node
  checked : Draft
  label : String
  -- the end of the true side, and the draft with it
  yes : Option Node
  held : Draft
  -- the end of the false side, and the draft with it
  no : Option Node
  failed : Draft
  -- where the flow goes on
  next : Option Node
  whole : Draft
  stands : At exit d c
  checks : (drawChecks c (questionMarks u)).Yields d start checked
  reads : headLabel "if " "" (Tree.fieldText source "condition" u.children) = .ok label
  holds : ((branchAt source "consequence" u.children).draw (checked.fresh .fork label) .condTrue
    "True").Yields (withCond checked start label) yes held
  fails : (drawSide (checked.fresh .fork label) (alternativeAt source u.children)).Yields held no failed
  joins : (joinSides (checked.fresh .fork label) yes no).Yields failed next whole
  after : Respects (Inside d next whole) whole D

theorem Visited.parted {source : Bytes} {describe : String → Except DrawFault Value} {t u : Tree}
    {D d : Draft} {c : Node} {rest : List Statement} (hd : draft source describe t = (.ok (), D))
    (h : Visited source describe t ⟨.block (.ofTree source u :: rest), c, d⟩)
    (hu : u.kind = "if_expression") : Nonempty (Parted source u c d D) := by
  obtain ⟨x, hfit, hdrawn⟩ := h.sound hd
  obtain ⟨next, d', hy, hafter⟩ := hdrawn.statement hfit
  rw [Statement.ofTree_cond hu, yields_checked] at hy
  obtain ⟨n, d₁, hchecks, hy⟩ := hy
  obtain ⟨s, yes, d₂, no, d₃, hs, hyes, hno, hjoin⟩ := yields_cond.1 hy
  exact ⟨⟨x, n, d₁, s, yes, d₂, no, d₃, next, d', hfit, hchecks, hs, hyes, hno, hjoin, hafter⟩⟩

namespace Parted

variable {source : Bytes} {u : Tree} {c : Node} {d D : Draft}

def fork (p : Parted source u c d D) : Node := p.checked.fresh .fork p.label

section
variable (p : Parted source u c d D)

theorem atStart : At p.exit p.checked p.start :=
  ((drawChecks_drawn _ p.stands p.checks).finish _ rfl).1

theorem atFork : At p.exit (withCond p.checked p.start p.label) p.fork :=
  ((drawn_withCond p.atStart p.label).finish _ rfl).1

theorem drawn_holds : Drawn manner p.exit p.fork (withCond p.checked p.start p.label) p.yes p.held :=
  Branch.lays _ _ _ _ (by decide) _ _ _ _ p.atFork p.holds

theorem atFork_held : At p.exit p.held p.fork :=
  p.atFork.run p.atFork p.drawn_holds.run p.drawn_holds.loops

theorem drawn_fails : Drawn manner p.exit p.fork p.held p.no p.failed :=
  lays_side (fun b _ => b.lays _) _ _ _ _ p.atFork_held p.fails

theorem atFork_failed : At p.exit p.failed p.fork :=
  p.atFork_held.run p.atFork_held p.drawn_fails.run p.drawn_fails.loops

theorem has_yes {n : Node} (h : p.yes = some n) : p.failed.graph.Has n :=
  ((p.drawn_holds.finish n h).1.run p.atFork_held p.drawn_fails.run p.drawn_fails.loops).footing.has

theorem has_no {n : Node} (h : p.no = some n) : p.failed.graph.Has n := (p.drawn_fails.finish n h).1.footing.has

theorem grows_whole : Grows p.fork (withCond p.checked p.start p.label) p.whole :=
  p.atFork.growsOf (drawn_joinSides p.atFork p.drawn_holds p.drawn_fails p.joins).run

theorem has_checked {n : Node} (h : d.graph.Has n) : p.checked.graph.Has n :=
  (p.stands.growsOf (drawChecks_drawn _ p.stands p.checks).run).has h

theorem next_ne {n : Node} (h : p.failed.graph.Has n) : p.next ≠ some n := by
  have hjoins := yields_joinSides.1 p.joins
  split at hjoins
  · rw [hjoins.1]
    rintro ⟨⟩
    exact Draft.fresh_not_has p.atFork_failed.sound.numbered h
  · rw [hjoins.1]
    nofun

theorem fork_inside : Inside d p.next p.whole p.fork :=
  ⟨p.grows_whole.has p.atFork.footing.has,
    fun h => Draft.fresh_not_has p.atStart.sound.numbered (p.has_checked h),
    p.next_ne p.atFork_failed.footing.has⟩

theorem node?_fork : D.graph.node? p.fork.id = some p.fork :=
  p.after.numbered.node?_of_has (p.after.has p.fork_inside.1)

end

def forkWays (consequence alternative : List Statement) : List EdgeKind :=
  if consequence.isEmpty then .condFalse :: if alternative.isEmpty then [] else [.seq]
  else [.condTrue, .condFalse]

theorem ways_fork (p : Parted source u c d D) {l l' : List Statement}
    (hl : (branchAt source "consequence" u.children).list? = some l)
    (hl' : ∀ b, alternativeAt source u.children = some b → b.list? = some l')
    (hnone : alternativeAt source u.children = none → l' = []) :
    D.graph.ways p.fork = forkWays l l' := by
  have hstart : (withCond p.checked p.start p.label).graph.ways p.fork = [] := by
    have hp := p.atStart.grown .fork p.label .seq "" (by decide)
    unfold withCond
    rw [ways_withNode hp.stands.sound.numbered]
    exact congrArg (List.map Edge.kind) hp.sink
  obtain ⟨hyes, hways₁⟩ := ways_side p.atFork (by decide) hl p.holds
  have hfalse : (p.no = some p.fork ↔ l'.isEmpty) ∧
      p.failed.graph.ways p.fork = p.held.graph.ways p.fork ++ if l'.isEmpty then [] else [.condFalse] := by
    have hfails := p.fails
    cases halt : alternativeAt source u.children with
    | none =>
      rw [halt] at hfails
      obtain ⟨hno, hsame⟩ := yields_pure.1 hfails
      rw [hnone halt, hno, hsame]
      exact ⟨iff_of_true rfl rfl, (List.append_nil _).symm⟩
    | some b =>
      rw [halt] at hfails
      exact ways_side p.atFork_held (by decide) (hl' b halt) hfails
  have hways := ways_joinSides p.atFork_failed (fun _ => p.has_yes) (fun _ => p.has_no) hyes hfalse.1 p.joins
  have hD : D.graph.ways p.fork = p.whole.graph.ways p.fork :=
    congrArg (List.map Edge.kind) (p.after.outgoing _ p.fork_inside)
  rw [hD, hways, hfalse.2, hways₁, hstart, forkWays]
  cases l.isEmpty <;> cases l'.isEmpty <;> rfl

theorem ways_of_blocks (p : Parted source u c d D) {b : Tree} (hb : u.child? "consequence" = some b)
    (hblock : b.kind = "block") (halt : ∀ w, u.child? "alternative" = some w → w.kind = "block") :
    D.graph.ways p.fork = forkWays (statements source b.children)
      ((u.child? "alternative").elim [] fun w => statements source w.children) := by
  refine p.ways_fork ?_ ?_ ?_
  · rw [branchAt_eq, ← Tree.child?, hb, Option.elim_some, Branch.ofTree, if_pos hblock]
    rfl
  · intro w hw
    rw [alternativeAt_eq, ← Tree.child?] at hw
    obtain ⟨w', hw', rfl⟩ := Option.map_eq_some_iff.1 hw
    rw [hw', Branch.ofTree, if_pos (halt w' hw')]
    rfl
  · intro hnone
    rw [alternativeAt_eq, ← Tree.child?, Option.map_eq_none_iff] at hnone
    rw [hnone]
    rfl

end Parted

/-- There is a way on for the case that the condition holds, and one for the case that it fails. -/
def TwoSided (g : Graph) (fork : Node) : Prop := .condTrue ∈ g.ways fork ∧ .condFalse ∈ g.ways fork

theorem twoSided_of_ways {g : Graph} {fork : Node} {l l' : List Statement}
    (h : g.ways fork = Parted.forkWays l l') : TwoSided g fork ↔ l ≠ [] := by
  unfold TwoSided
  rw [h]
  cases l with
  | nil => cases l' <;> simp [Parted.forkWays]
  | cons s r => simp [Parted.forkWays]

theorem statements_ne_nil {source : Bytes} {l : List Tree} :
    statements source l ≠ [] ↔ ∃ k ∈ l, isFiller k.kind = false := by
  induction l with
  | nil => simp [statements]
  | cons k l ih => by_cases hk : isFiller k.kind <;> simp [statements, hk, ih]

/-- The edges at the fork of a condition with blocks on its sides. It has two sides exactly if its
first block is not empty. -/
theorem fork_twoSided_iff {source : Bytes} {describe : String → Except DrawFault Value} {t u b : Tree}
    {D d : Draft} {c : Node} {rest : List Statement} (hd : draft source describe t = (.ok (), D))
    (h : Visited source describe t ⟨.block (.ofTree source u :: rest), c, d⟩)
    (hu : u.kind = "if_expression") (hb : u.child? "consequence" = some b) (hblock : b.kind = "block")
    (halt : ∀ w, u.child? "alternative" = some w → w.kind = "block") :
    ∃ p : Parted source u c d D, D.graph.node? p.fork.id = some p.fork ∧ p.fork.kind = .fork ∧
      D.graph.ways p.fork = Parted.forkWays (statements source b.children)
        ((u.child? "alternative").elim [] fun w => statements source w.children) ∧
      (TwoSided D.graph p.fork ↔ ∃ k ∈ b.children, isFiller k.kind = false) := by
  obtain ⟨p⟩ := h.parted hd hu
  have hways := p.ways_of_blocks hb hblock halt
  exact ⟨p, p.node?_fork, rfl, hways, (twoSided_of_ways hways).trans statements_ne_nil⟩

def idleCode : Bytes :=
  "fn f() \x7b loop \x7b if a \x7b /**/ \x7d break \x7d \x7d".toUTF8.toList

def idleCondition : Tree :=
  .node "if_expression" 16 29 none
    [.node "identifier" 19 20 (some "condition") [],
     .node "block" 21 29 (some "consequence") [.node "block_comment" 23 27 none []]]

def idleLoop : Tree :=
  .node "function_item" 0 39 none
    [.node "identifier" 3 4 (some "name") [],
     .node "block" 7 39 (some "body")
      [.node "loop_expression" 9 37 none
        [.node "block" 14 37 (some "body")
          [.node "expression_statement" 16 29 none [idleCondition],
           .node "break_expression" 30 35 none []]]]]

theorem visited_idleLoop : ∃ c d, Visited idleCode (fun _ => .ok (.str "")) idleLoop
    ⟨.block [.ofTree idleCode idleCondition], c, d⟩ := by
  have hname : (Function.ofTree idleCode idleLoop).name = .ok "f" := by decide +kernel
  have hbody : (Function.ofTree idleCode idleLoop).body = .braces [.checked [] (.forever (.braces
      [.checked [] (.ofTree idleCode idleCondition), .checked [] .breakLoop]))] := by
    rfl
  have hroot : Visited idleCode (fun _ => .ok (.str "")) idleLoop (rootSpot "f" (.str "") _) :=
    ⟨"f", .str "", _, hname, rfl, hbody, .refl⟩
  have hloop := hroot.unmarked.next (.inside (.forever _))
  exact ⟨_, _, hloop.unmarked⟩

theorem idleLoop_not_twoSided : ∃ D c d,
    draft idleCode (fun _ => .ok (.str "")) idleLoop = (.ok (), D) ∧
      Visited idleCode (fun _ => .ok (.str "")) idleLoop
        ⟨.block [.ofTree idleCode idleCondition], c, d⟩ ∧
      ∃ p : Parted idleCode idleCondition c d D, D.graph.ways p.fork = [.condFalse] ∧
        ¬ TwoSided D.graph p.fork := by
  have hok : (draft idleCode (fun _ => .ok (.str "")) idleLoop).1 = .ok () := by decide +kernel
  obtain ⟨D, hD⟩ : ∃ D, draft idleCode (fun _ => .ok (.str "")) idleLoop = (.ok (), D) :=
    ⟨_, Prod.ext hok rfl⟩
  obtain ⟨c, d, hvisited⟩ := visited_idleLoop
  obtain ⟨p, -, -, hways, hiff⟩ := fork_twoSided_iff hD hvisited rfl rfl rfl nofun
  refine ⟨D, c, d, hD, hvisited, p, hways.trans ?_, fun htwo => ?_⟩
  · simp [Tree.children, statements, isFiller, Tree.kind, Tree.child?, Tree.fillerOf, idleCondition,
      Tree.field, Parted.forkWays]
  · obtain ⟨k, hk, hkind⟩ := hiff.1 htwo
    simp [Tree.children] at hk
    simp [hk, Tree.kind, isFiller] at hkind

end Braced

end Workbench.Flow
