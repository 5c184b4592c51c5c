import Workbench.Proofs.Flow.Store
import Workbench.Proofs.Flow.Braced.Growth

/-!
# Scans for question marks

A scan goes through a tree and draws a check for each question mark that comes up. The checks make up
a chain behind the current node, with a way out of the function from each, and nothing else changes.
Which question marks come up can be told from where they stand: those that are inside no other one
and in no closure or asynchronous block, in preorder.
-/

namespace Workbench

/-! ## Places in a tree -/

namespace Tree

/-- A node of a tree with the nodes that it stands inside, the innermost first. -/
structure Occurrence where
  outer : List Tree
  tree : Tree

mutual

def occurrences (outer : List Tree) : Tree → List Occurrence
  | .node kind start stop field children =>
    ⟨outer, .node kind start stop field children⟩ ::
      occurrencesAmong (.node kind start stop field children :: outer) children

def occurrencesAmong (outer : List Tree) : List Tree → List Occurrence
  | [] => []
  | t :: ts => occurrences outer t ++ occurrencesAmong outer ts

end

/-- A question mark inside no other one and in no closure or asynchronous block. -/
def Occurrence.IsOutermostMark (o : Occurrence) : Prop :=
  o.tree.kind = "try_expression" ∧ (∀ u ∈ o.outer, u.kind ≠ "try_expression") ∧
    ∀ u ∈ o.tree :: o.outer, u.kind ≠ "closure_expression" ∧ u.kind ≠ "async_block"

instance (o : Occurrence) : Decidable o.IsOutermostMark :=
  inferInstanceAs (Decidable (_ ∧ _ ∧ _))

/-- The outermost question marks among all nodes of a tree. -/
def outermostMarks (root : Tree) : List Occurrence :=
  (root.occurrences []).filter fun o => o.IsOutermostMark

def Shows (u : Tree) : Prop :=
  u.kind ≠ "try_expression" ∧ u.kind ≠ "closure_expression" ∧ u.kind ≠ "async_block"

mutual

theorem subset_outer {outer : List Tree} : ∀ (t : Tree) {o : Occurrence},
    o ∈ t.occurrences outer → outer ⊆ o.outer
  | .node kind start stop field children, o, ho => by
    rw [occurrences] at ho
    rcases List.mem_cons.1 ho with rfl | ho
    · exact List.Subset.refl outer
    · exact List.Subset.trans (List.subset_cons_self _ outer) (subset_outer_among children ho)

theorem subset_outer_among {outer : List Tree} : ∀ (ts : List Tree) {o : Occurrence},
    o ∈ occurrencesAmong outer ts → outer ⊆ o.outer
  | [], o, ho => by
    rw [occurrencesAmong] at ho
    exact absurd ho List.not_mem_nil
  | t :: ts, o, ho => by
    rw [occurrencesAmong] at ho
    rcases List.mem_append.1 ho with ho | ho
    · exact subset_outer t ho
    · exact subset_outer_among ts ho

end

/-- Inside a question mark, a closure or an asynchronous block no question mark is outermost. -/
theorem filter_occurrencesAmong_eq_nil {u : Tree} {outer ts : List Tree} (hu : ¬ u.Shows) :
    (occurrencesAmong (u :: outer) ts).filter (fun o => o.IsOutermostMark) = [] := by
  rw [List.filter_eq_nil_iff]
  intro o ho hmark
  obtain ⟨-, hmarks, hblocks⟩ := of_decide_eq_true hmark
  have hmem : u ∈ o.outer := subset_outer_among ts ho List.mem_cons_self
  exact hu ⟨hmarks u hmem, hblocks u (List.mem_cons_of_mem _ hmem)⟩

end Tree

namespace Flow

namespace Braced

open Drawing

/-! ## The question marks that come up -/

-- by recursion on the tree, for trees inside nodes in which question marks come up
mutual

theorem filter_occurrences {outer : List Tree} (houter : ∀ u ∈ outer, u.Shows) : ∀ t : Tree,
    ((t.occurrences outer).filter fun o => o.IsOutermostMark).map Tree.Occurrence.tree =
      questionMarks t
  | .node kind start stop field children => by
    rw [Tree.occurrences, questionMarks]
    by_cases hblock : kind = "closure_expression" ∨ kind = "async_block"
    · have hself : ¬ Tree.Occurrence.IsOutermostMark ⟨outer, .node kind start stop field children⟩ :=
        fun h => (h.2.2 _ List.mem_cons_self).elim fun h₁ h₂ => hblock.elim h₁ h₂
      have hinside : ¬ Tree.Shows (.node kind start stop field children) :=
        fun h => hblock.elim h.2.1 h.2.2
      rw [if_pos hblock, List.filter_cons_of_neg (by simpa using hself),
        Tree.filter_occurrencesAmong_eq_nil hinside, List.map_nil]
    · rw [if_neg hblock]
      have hopen := not_or.1 hblock
      by_cases hmark : kind = "try_expression"
      · have hself : Tree.Occurrence.IsOutermostMark ⟨outer, .node kind start stop field children⟩ :=
          ⟨hmark, fun u hu => (houter u hu).1, List.forall_mem_cons.2 ⟨hopen, fun u hu => (houter u hu).2⟩⟩
        have hinside : ¬ Tree.Shows (.node kind start stop field children) := fun h => h.1 hmark
        rw [if_pos hmark, List.filter_cons_of_pos (by simpa using hself),
          Tree.filter_occurrencesAmong_eq_nil hinside, List.map_cons, List.map_nil]
      · have hself : ¬ Tree.Occurrence.IsOutermostMark ⟨outer, .node kind start stop field children⟩ :=
          fun h => hmark h.1
        have hinside : Tree.Shows (.node kind start stop field children) := ⟨hmark, hopen⟩
        rw [if_neg hmark, List.filter_cons_of_neg (by simpa using hself)]
        exact filter_occurrencesAmong (List.forall_mem_cons.2 ⟨hinside, houter⟩) children

theorem filter_occurrencesAmong {outer : List Tree} (houter : ∀ u ∈ outer, u.Shows) :
    ∀ ts : List Tree, ((Tree.occurrencesAmong outer ts).filter fun o => o.IsOutermostMark).map
      Tree.Occurrence.tree = questionMarksAmong ts
  | [] => by rw [Tree.occurrencesAmong, questionMarksAmong, List.filter_nil, List.map_nil]
  | t :: ts => by
    rw [Tree.occurrencesAmong, questionMarksAmong, List.filter_append, List.map_append,
      filter_occurrences houter t, filter_occurrencesAmong houter ts]

end

/-- The question marks that come up are the outermost ones, in their order. -/
theorem questionMarks_eq (root : Tree) :
    questionMarks root = root.outermostMarks.map Tree.Occurrence.tree :=
  (filter_occurrences (fun _ hu => absurd hu List.not_mem_nil) root).symm

/-! ## Scans and checks -/

theorem drawChecks_singleton (c : Node) (mark : Tree) : drawChecks c [mark] = drawCheck c mark := by
  simp only [drawChecks, bind_pure]

mutual

/-- A scan draws a check for each of the outermost question marks, one child after the other. -/
theorem scan_eq : ∀ (t : Tree) (c : Node), scan c t = drawChecks c (questionMarks t)
  | .node kind start stop field children, c => by
    rw [scan, questionMarks]
    split
    · rfl
    · split
      · exact (drawChecks_singleton c _).symm
      · exact scanAmong_eq children c

theorem scanAmong_eq : ∀ (ts : List Tree) (c : Node),
    scanAmong c ts = drawChecks c (questionMarksAmong ts)
  | [], c => rfl
  | t :: ts, c => by
    rw [scanAmong, questionMarksAmong, drawChecks_append, scan_eq t c]
    simp only [scanAmong_eq ts]

end

theorem draw_ofTree (source : Bytes) (t : Tree) (c : Node) :
    (Statement.ofTree source t).draw c = scan c t >>= drawUnchecked source t := by
  obtain ⟨kind, start, stop, field, children⟩ := t
  rw [scan_eq]
  rfl

end Braced

/-! ## Names in use -/

namespace Graph

variable {g : Graph} {id : String}

def Free (g : Graph) (id : String) : Prop :=
  id ∉ g.ids ∧ ∀ e ∈ g.edges, e.source ≠ id ∧ e.target ≠ id

def Untouched (g : Graph) : Prop := ∀ kind i, g.counter < i → g.Free (nodeId kind i)

/-- It is so in every graph that numbers its nodes itself, also after merging. -/
theorem Settled.untouched (hg : g.Settled) : g.Untouched := by
  intro kind i hi
  have hid := hg.nodeId_not_mem kind hi
  exact ⟨hid, fun e he => ⟨fun h => hid (h ▸ hg.source e he), fun h => hid (h ▸ hg.target e he)⟩⟩

def extended (g : Graph) (nodes : List Node) (edges : List Edge) : Graph :=
  { g with
    vertices := g.vertices ++ nodes.map fun n => ⟨n.id, some n⟩
    edges := g.edges ++ edges
    counter := g.counter + nodes.length }

theorem mem_ids_extended {nodes : List Node} {edges : List Edge} :
    id ∈ (g.extended nodes edges).ids ↔ id ∈ g.ids ∨ ∃ n ∈ nodes, n.id = id := by
  simp [extended, ids]

theorem linked_extended {nodes : List Node} {edges : List Edge} {u v : String} :
    (g.extended nodes edges).Linked u v ↔
      g.Linked u v ∨ ∃ e ∈ edges, e.source = u ∧ e.target = v := by
  simp only [Linked, extended, List.mem_append, or_and_right, exists_or]

theorem Free.ne (h : g.Free id) {used : String} (hused : used ∈ g.ids) : used ≠ id := by
  rintro rfl
  exact h.1 hused

theorem Free.extended (h : g.Free id) {nodes : List Node} {edges : List Edge}
    (hnodes : ∀ n ∈ nodes, n.id ≠ id) (hedges : ∀ e ∈ edges, e.source ≠ id ∧ e.target ≠ id) :
    (g.extended nodes edges).Free id := by
  constructor
  · rw [mem_ids_extended]
    rintro (hid | ⟨n, hn, hid⟩)
    · exact h.1 hid
    · exact hnodes n hn hid
  · intro e he
    rcases List.mem_append.1 he with he | he
    · exact h.2 e he
    · exact hedges e he

theorem addEdge_eq_extended {e : Edge} (hs : e.source ∈ g.ids) (ht : e.target ∈ g.ids)
    (hlinked : ¬ g.Linked e.source e.target) : g.addEdge e = g.extended [] [e] := by
  have hnew : ¬ (g.edges.any fun d => d.source == e.source && d.target == e.target) = true := by
    intro h
    obtain ⟨d, hd, hde⟩ := List.any_eq_true.1 h
    simp only [Bool.and_eq_true, beq_iff_eq] at hde
    exact hlinked ⟨d, hd, hde⟩
  simp only [addEdge, touch_of_mem hs, touch_of_mem ht, extended]
  rw [if_neg hnew, List.map_nil, List.append_nil]
  rfl

end Graph

namespace Draft

def extended (d : Draft) (nodes : List Node) (edges : List Edge) : Draft :=
  { d with graph := d.graph.extended nodes edges, strokes := d.strokes ++ edges }

theorem extended_nil (d : Draft) : d.extended [] [] = d := by
  simp [extended, Graph.extended]

theorem extended_extended (d : Draft) (ns ms : List Node) (es fs : List Edge) :
    (d.extended ns es).extended ms fs = d.extended (ns ++ ms) (es ++ fs) := by
  simp [extended, Graph.extended, Nat.add_assoc]

section
variable {d : Draft} {c u v : Node} {kind : NodeKind} {label : Label} {edgeLabel : String}
  {edge : EdgeKind}

theorem withEdge_eq_extended (hu : u.id ∈ d.graph.ids) (hv : v.id ∈ d.graph.ids)
    (h : ¬ d.graph.Linked u.id v.id) :
    d.withEdge u v edge edgeLabel = d.extended [] [⟨u.id, v.id, edge, edgeLabel⟩] := by
  rw [withEdge, Graph.addEdge_eq_extended hu hv h, extended]

theorem withNode_eq_extended (h : d.graph.Free (d.fresh kind label).id) :
    d.withNode kind label = d.extended [d.fresh kind label] [] := by
  rw [withNode, Graph.addNode_of_not_mem h.1, extended, Graph.extended, List.append_nil,
    List.append_nil]
  rfl

theorem grown_eq_extended (h : d.graph.Free (d.fresh kind label).id) (hc : c.id ∈ d.graph.ids) :
    d.grown c kind label edge edgeLabel =
      d.extended [d.fresh kind label] [⟨c.id, (d.fresh kind label).id, edge, edgeLabel⟩] := by
  have hlinked : ¬ (d.extended [d.fresh kind label] []).graph.Linked c.id (d.fresh kind label).id := by
    intro hl
    rcases Graph.linked_extended.1 hl with ⟨e, he, -, ht⟩ | ⟨e, he, -⟩
    · exact (h.2 e he).2 ht
    · exact absurd he List.not_mem_nil
  rw [grown, withNode_eq_extended h, withEdge_eq_extended (Graph.mem_ids_extended.2 (.inl hc))
    (Graph.mem_ids_extended.2 (.inr ⟨_, List.mem_cons_self, rfl⟩)) hlinked, extended_extended]
  rfl

end

end Draft

namespace Braced

open Drawing

/-! ## Chains of checks -/

def checkNode (i : Nat) (mark : Tree) : Node :=
  ⟨nodeId .virtual i, .virtual, "Check '?'", some mark, .str "", none⟩

/-- The next checks of a graph that has numbered some nodes, one for each question mark. -/
def nextChecks (counter : Nat) (marks : List Tree) : List Node :=
  (marks.zipIdx (counter + 1)).map fun (mark, i) => checkNode i mark

/-- The edges of a chain of checks behind a node: each check follows the one before and may leave the
function. -/
def chain (exit : Node) : Node → List Node → List Edge
  | _, [] => []
  | current, check :: rest =>
    ⟨current.id, check.id, .seq, ""⟩ :: ⟨check.id, exit.id, .err, "Err"⟩ :: chain exit check rest

theorem nextChecks_cons (counter : Nat) (mark : Tree) (marks : List Tree) :
    nextChecks counter (mark :: marks) =
      checkNode (counter + 1) mark :: nextChecks (counter + 1) marks := by
  rw [nextChecks, List.zipIdx_cons, List.map_cons, nextChecks]

theorem map_mark_nextChecks (counter : Nat) (marks : List Tree) :
    (nextChecks counter marks).map Node.mark = marks.map some := by
  rw [nextChecks, List.map_map]
  conv_rhs => rw [← List.zipIdx_map_fst (counter + 1) marks, List.map_map]
  rfl

theorem nodup_nextChecks (counter : Nat) (marks : List Tree) :
    ((nextChecks counter marks).map Node.id).Nodup := by
  have hids : (nextChecks counter marks).map Node.id =
      ((marks.zipIdx (counter + 1)).map Prod.snd).map (nodeId .virtual) := by
    rw [nextChecks, List.map_map, List.map_map]
    rfl
  rw [hids, List.zipIdx_map_snd]
  exact (List.nodup_range' 1).map fun i j h => (nodeId_inj h).2

/-- A function in the making that ends at `x`, with the flow at `c`. Both stand in its graph, and the
names to come are free. -/
structure Ready (d : Draft) (c x : Node) : Prop where
  untouched : d.graph.Untouched
  exit : d.exit = some x
  has_exit : x.id ∈ d.graph.ids
  has_current : c.id ∈ d.graph.ids

section
variable {d : Draft} {c x : Node}

theorem Ready.free (h : Ready d c x) {marks : List Tree} {n : Node}
    (hn : n ∈ nextChecks d.graph.counter marks) : d.graph.Free n.id := by
  obtain ⟨⟨mark, i⟩, hi, rfl⟩ := List.mem_map.1 hn
  exact h.untouched .virtual i (List.le_snd_of_mem_zipIdx hi)

theorem Ready.withCheck_eq (h : Ready d c x) (mark : Tree) : withCheck d c x mark =
    d.extended [checkNode (d.graph.counter + 1) mark]
      (chain x c [checkNode (d.graph.counter + 1) mark]) := by
  have hfree : d.graph.Free (d.fresh .virtual (checkLabel mark)).id :=
    h.untouched .virtual _ (Nat.lt_succ_self _)
  rw [withCheck, Draft.grown_eq_extended hfree h.has_current, Draft.withEdge_eq_extended
    (Graph.mem_ids_extended.2 (.inr ⟨_, List.mem_cons_self, rfl⟩))
    (Graph.mem_ids_extended.2 (.inl h.has_exit)), Draft.extended_extended]
  · rfl
  · -- only the new edge could lead out of the check, and it comes from an old node
    intro hl
    rcases Graph.linked_extended.1 hl with ⟨e, he, hs, -⟩ | ⟨e, he, hs, -⟩
    · exact (hfree.2 e he).1 hs
    · obtain rfl := List.mem_singleton.1 he
      exact hfree.ne h.has_current hs

theorem Ready.next (h : Ready d c x) (mark : Tree) :
    Ready (withCheck d c x mark) (checkNode (d.graph.counter + 1) mark) x := by
  rw [h.withCheck_eq]
  refine ⟨fun kind i hi => ?_, h.exit, Graph.mem_ids_extended.2 (.inl h.has_exit),
    Graph.mem_ids_extended.2 (.inr ⟨_, List.mem_cons_self, rfl⟩)⟩
  have hlt : d.graph.counter + 1 < i := hi
  have hfree : d.graph.Free (nodeId kind i) := h.untouched kind i (by omega)
  have hcheck : (checkNode (d.graph.counter + 1) mark).id ≠ nodeId kind i := by
    intro hid
    obtain ⟨-, rfl⟩ := nodeId_inj hid
    omega
  refine hfree.extended (by simpa using hcheck) ?_
  simp only [chain, List.forall_mem_cons]
  exact ⟨⟨hfree.ne h.has_current, hcheck⟩, ⟨hcheck, hfree.ne h.has_exit⟩, by simp⟩

theorem Ready.yields_drawChecks (h : Ready d c x) (marks : List Tree) :
    (drawChecks c marks).Yields d ((nextChecks d.graph.counter marks).getLastD c)
      (d.extended (nextChecks d.graph.counter marks)
        (chain x c (nextChecks d.graph.counter marks))) := by
  induction marks generalizing c d with
  | nil => exact yields_pure.2 ⟨rfl, d.extended_nil.symm⟩
  | cons mark marks ih =>
    have hrest := ih (h.next mark)
    rw [h.withCheck_eq, Draft.extended_extended] at hrest
    rw [yields_drawChecks_cons h.exit, h.withCheck_eq, nextChecks_cons, List.getLastD_cons]
    exact hrest

end

/-- A scan draws a chain of checks, one for each outermost question mark of the tree and in the order of
the question marks, and changes nothing else. It ends at the last check. -/
theorem scan_yields_chain (root : Tree) {d : Draft} {c x : Node} (h : Ready d c x) :
    let checks := nextChecks d.graph.counter (root.outermostMarks.map Tree.Occurrence.tree)
    checks.length = root.outermostMarks.length ∧
      checks.map Node.mark = root.outermostMarks.map (fun o => some o.tree) ∧
      (checks.map Node.id).Nodup ∧ (∀ n ∈ checks, d.graph.Free n.id) ∧
      (scan c root).Yields d (checks.getLastD c) (d.extended checks (chain x c checks)) := by
  refine ⟨by simp [nextChecks], ?_, nodup_nextChecks _ _, fun n => h.free, ?_⟩
  · rw [map_mark_nextChecks, List.map_map]
    rfl
  · rw [scan_eq, questionMarks_eq]
    exact h.yields_drawChecks _

def bareFunction : Draft where
  graph := (((Graph.empty "g").addNode .block "fn f" (.str "")).2.addNode .exit "Function Exit"
    (.str "")).2
  exit := some ⟨"exit_2", .exit, "Function Exit", none, .str "", none⟩
  loops := []
  strokes := []

theorem ready_bareFunction : Ready bareFunction ⟨"block_1", .block, "fn f", none, .str "", none⟩
    ⟨"exit_2", .exit, "Function Exit", none, .str "", none⟩ where
  untouched := (((Graph.settled_empty "g").addNode .block "fn f" (.str "")).addNode .exit
    "Function Exit" (.str "")).untouched
  exit := rfl
  has_exit := by decide +kernel
  has_current := by decide +kernel

/-- The tree of `a(b()?, |v| v?)?`. -/
def earlyMark : Tree :=
  .node "try_expression" 0 16 (some "value")
    [.node "call_expression" 0 15 none
      [.node "identifier" 0 1 (some "function") [],
       .node "arguments" 1 15 (some "arguments")
        [.node "try_expression" 2 6 none [.node "call_expression" 2 5 none []],
         .node "closure_expression" 8 14 none
          [.node "try_expression" 12 14 (some "body") [.node "identifier" 12 13 none []]]]]]

/-- The tree of `e()?`. -/
def lateMark : Tree := .node "try_expression" 35 39 none [.node "call_expression" 35 38 none []]

/-- The tree of `a(b()?, |v| v?)?.c(async { d()? }, e()?)`. -/
def mixedMarks : Tree :=
  .node "call_expression" 0 40 none
    [.node "field_expression" 0 18 (some "function")
      [earlyMark, .node "field_identifier" 17 18 (some "field") []],
     .node "arguments" 18 40 (some "arguments")
      [.node "async_block" 19 33 none
        [.node "block" 25 33 none
          [.node "try_expression" 27 31 none [.node "call_expression" 27 30 none []]]],
       lateMark]]

theorem mixedMarks_yields_chain :
    Ready bareFunction ⟨"block_1", .block, "fn f", none, .str "", none⟩
      ⟨"exit_2", .exit, "Function Exit", none, .str "", none⟩ ∧
    mixedMarks.outermostMarks.map Tree.Occurrence.tree = [earlyMark, lateMark] ∧
    (scan ⟨"block_1", .block, "fn f", none, .str "", none⟩ mixedMarks).Yields bareFunction
      (checkNode 4 lateMark)
      (bareFunction.extended [checkNode 3 earlyMark, checkNode 4 lateMark]
        [⟨"block_1", "virtual_3", .seq, ""⟩, ⟨"virtual_3", "exit_2", .err, "Err"⟩,
         ⟨"virtual_3", "virtual_4", .seq, ""⟩, ⟨"virtual_4", "exit_2", .err, "Err"⟩]) := by
  have hmarks : mixedMarks.outermostMarks.map Tree.Occurrence.tree = [earlyMark, lateMark] := by
    rw [← questionMarks_eq]
    rfl
  obtain ⟨-, -, -, -, hscan⟩ := scan_yields_chain mixedMarks ready_bareFunction
  rw [hmarks] at hscan
  exact ⟨ready_bareFunction, hmarks, hscan⟩

end Braced

end Flow

end Workbench
