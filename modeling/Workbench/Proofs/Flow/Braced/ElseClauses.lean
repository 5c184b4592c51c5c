import Workbench.Proofs.Flow.Braced.Roster
import Workbench.Proofs.Flow.Braced.Sides

/-!
# Clauses for the other case

What is done where a condition fails stands in a clause that wraps a block or a further condition.
Drawing does not look into the clause: behind the checks for its question marks it becomes one plain
block, from which the flow goes on. So the graph has what is wrapped only in the one case that this
is a single plain statement with the same label and the same question marks.
-/

namespace Workbench.Flow.Braced

open Drawing

/-! ## Plain statements -/

/-- The question marks and the label of a statement that only goes on to the next. -/
def Statement.asPlain : Statement → Option (List Tree × String)
  | .checked marks inner => inner.asPlain.map fun p => (marks ++ p.1, p.2)
  | .plain (.ok label) => some ([], label)
  | _ => none

section
variable {x c n : Node} {d d' : Draft} {r : Option Node} {marks : List Tree} {label : String}

theorem yields_plain : (Statement.draw c (.plain (.ok label))).Yields d r d' ↔
    r = some (d.fresh .block label) ∧ d' = d.grown c .block label .seq "" := by
  simp only [Statement.draw, yields_bind, yields_readable, yields_append, yields_pure]
  constructor
  · rintro ⟨_, _, ⟨⟨⟩, rfl⟩, _, _, ⟨rfl, rfl⟩, rfl, rfl⟩
    exact ⟨rfl, rfl⟩
  · rintro ⟨rfl, rfl⟩
    exact ⟨_, _, ⟨rfl, rfl⟩, _, _, ⟨rfl, rfl⟩, rfl, rfl⟩

theorem yields_of_asPlain {s : Statement} (h : s.asPlain = some (marks, label)) :
    (s.draw c).Yields d r d' ↔ ∃ n d₁, (drawChecks c marks).Yields d n d₁ ∧
      r = some (d₁.fresh .block label) ∧ d' = d₁.grown n .block label .seq "" := by
  induction s using Statement.asPlain.induct generalizing marks c d with
  | case1 marks inner ih =>
    obtain ⟨⟨j, m⟩, hinner, heq⟩ := Option.map_eq_some_iff.1 h
    obtain ⟨rfl, rfl⟩ := Prod.mk.inj heq
    simp only [yields_checked, drawChecks_append, yields_bind, ih hinner]
    constructor
    · rintro ⟨m, d₁, h₁, n, d₂, h₂, h⟩
      exact ⟨n, d₂, ⟨m, d₁, h₁, h₂⟩, h⟩
    · rintro ⟨n, d₂, ⟨m, d₁, h₁, h₂⟩, h⟩
      exact ⟨m, d₁, h₁, n, d₂, h₂, h⟩
  | case2 m =>
    obtain ⟨rfl, rfl⟩ := Prod.mk.inj (Option.some.inj h)
    simp only [yields_plain, drawChecks, yields_pure]
    constructor
    · intro h
      exact ⟨c, d, ⟨rfl, rfl⟩, h⟩
    · rintro ⟨_, _, ⟨rfl, rfl⟩, h⟩
      exact h
  | case3 s hchecked hplain => simp [Statement.asPlain] at h

end

theorem marks_inj {x c n n' : Node} {d d₁ d₁' : Draft} {marks marks' : List Tree} {label : String}
    (hc : At x d c) (h : (drawChecks c marks).Yields d n d₁) (h' : (drawChecks c marks').Yields d n' d₁')
    (heq : d₁.grown n .block label .seq "" = d₁'.grown n' .block label .seq "") : marks = marks' := by
  have htraits {n : Node} {d₁ : Draft} {marks : List Tree} (h : (drawChecks c marks).Yields d n d₁) :
      (d₁.grown n .block label .seq "").graph.traits Node.mark =
        d.graph.traits Node.mark ++ marks.map some ++ [none] := by
    have hn := ((drawChecks_drawn marks hc h).finish n rfl).1
    have hmark : ∀ d mark, (Draft.fresh d .virtual (checkLabel mark)).mark = some mark := fun _ _ => rfl
    rw [Draft.traits_grown _ hn.sound.numbered hn.footing.has, traits_drawChecks hmark hc h]
    rfl
  have hsame := (htraits h).symm.trans ((congrArg (fun d => d.graph.traits Node.mark) heq).trans (htraits h'))
  have hmarks := List.append_cancel_left (List.append_cancel_right hsame)
  exact List.map_injective_iff.2 (fun _ _ => Option.some.inj) hmarks

/-! ## Telling a plain statement from its nodes -/

def Plain (f : NodeKind × String) : Prop := f = checkFace ∨ f.1 = .block

theorem asPlain_of_yields : ∀ {s : Statement} {c n : Node} {d d' : Draft},
    (s.draw c).Yields d (some n) d' → (∀ f ∈ s.roster, Plain f) →
    ∃ marks label, s.asPlain = some (marks, label) ∧
      s.roster = List.replicate marks.length checkFace ++ [(.block, label)]
  | .checked marks inner, c, n, d, d', h, hf => by
    obtain ⟨m, d₁, -, h⟩ := yields_checked.1 h
    rw [Statement.roster] at hf
    obtain ⟨more, label, hplain, hroster⟩ :=
      asPlain_of_yields h fun f hmem => hf f (List.mem_append_right _ hmem)
    refine ⟨marks ++ more, label, by rw [Statement.asPlain, hplain]; rfl, ?_⟩
    rw [Statement.roster, hroster, List.length_append, List.replicate_add, List.append_assoc]
  | .plain label, c, n, d, d', h, _ => by
    simp only [Statement.draw, yields_bind, yields_readable] at h
    obtain ⟨s, _, ⟨rfl, -⟩, -⟩ := h
    exact ⟨[], s, rfl, by rw [Statement.roster]; rfl⟩
  | .call label, c, n, d, d', _, hf => by
    simp [Statement.roster, Plain, checkFace] at hf
  | .hollow, c, n, d, d', h, _ => by
    simp only [Statement.draw, not_yields_throw] at h
  | .ret, c, n, d, d', _, hf => by
    simp [Statement.roster, Plain, checkFace] at hf
  | .panic, c, n, d, d', _, hf => by
    simp [Statement.roster, Plain, checkFace] at hf
  | .cond label consequence alternative, c, n, d, d', _, hf => by
    simp [Statement.roster, Plain, checkFace] at hf
  | .select label .missing, c, n, d, d', h, _ => by
    simp only [Statement.draw, yields_bind, not_yields_throw, and_false, exists_false] at h
  | .select label (.arms l), c, n, d, d', _, hf => by
    simp [Statement.roster, Plain, checkFace] at hf
  | .forever body, c, n, d, d', _, hf => by
    simp [Statement.roster, Plain, checkFace] at hf
  | .loop head label body, c, n, d, d', _, hf => by
    simp [Statement.roster, Plain, checkFace] at hf
  | .breakLoop, c, n, d, d', h, _ => by
    simp only [Statement.draw, yields_breakLoop] at h
    cases h.1
  | .continueLoop, c, n, d, d', h, _ => by
    simp only [Statement.draw, yields_continueLoop] at h
    cases h.1

theorem checks_append_inj {j k : Nat} {label label' : String} {l : List (NodeKind × String)}
    (h : List.replicate j checkFace ++ (.block, label) :: l =
      List.replicate k checkFace ++ [(.block, label')]) : j = k ∧ label = label' ∧ l = [] := by
  induction j generalizing k with
  | zero =>
    cases k with
    | zero => simpa using h
    | succ k => simp [List.replicate_succ, checkFace] at h
  | succ j ih =>
    cases k with
    | zero => simp [List.replicate_succ, checkFace] at h
    | succ k =>
      obtain ⟨rfl, hrest⟩ := ih (List.cons.inj h).2
      exact ⟨rfl, hrest⟩

theorem asPlain_of_block {x c n : Node} {d d' : Draft} {l : List Statement} {k : Nat} {label : String}
    (hc : At x d c) (h : (drawAll c l).Yields d (some n) d')
    (hl : blockRoster l = List.replicate k checkFace ++ [(.block, label)]) :
    ∃ s marks, l = [s] ∧ s.asPlain = some (marks, label) := by
  cases l with
  | nil => simp [blockRoster] at hl
  | cons s rest =>
    obtain ⟨next, d₁, h₁, ⟨-, ⟨⟩, -⟩ | ⟨m, rfl, h⟩⟩ := yields_cons.1 h
    have hgo : s.goesOn = true := (s.records x _ _ _ _ hc h₁).2.symm
    rw [blockRoster, hgo, if_pos rfl] at hl
    obtain ⟨marks, label', hplain, hroster⟩ := asPlain_of_yields h₁ fun f hf => by
      have hmem : f ∈ List.replicate k checkFace ++ [(.block, label)] := hl ▸ List.mem_append_left _ hf
      rcases List.mem_append.1 hmem with hf | hf
      · exact .inl (List.eq_of_mem_replicate hf)
      · exact .inr (by rw [List.mem_singleton.1 hf])
    rw [hroster, List.append_assoc] at hl
    obtain ⟨-, rfl, hnil⟩ : marks.length = k ∧ label' = label ∧ blockRoster rest = [] :=
      checks_append_inj hl
    cases rest with
    | nil => exact ⟨s, marks, rfl, hplain⟩
    | cons s' rest =>
      -- a further statement would come with a node of its own
      obtain ⟨next', d₂, h₂, hnext⟩ := yields_cons.1 h
      rw [blockRoster, List.append_eq_nil_iff] at hnil
      obtain ⟨-, ⟨⟩, -⟩ | ⟨m', rfl, -⟩ := hnext
      obtain ⟨_, _, -, hroster'⟩ := asPlain_of_yields h₂ (by rw [hnil.1]; nofun)
      simp [hnil.1] at hroster'

/-! ## Edges without jumps -/

/-- All edges from nodes that came in since are of plain sequence or lead out of the function. -/
def Tame (d d' : Draft) : Prop :=
  ∀ e ∈ d'.graph.edges, (∃ n, d.graph.Has n ∧ n.id = e.source) ∨ e.kind = .seq ∨ e.kind = .err

section
variable {x c n u v fork : Node} {d d₁ d' : Draft} {marks : List Tree} {yes no r : Option Node}

theorem Tame.refl (hd : d.graph.Numbered) : Tame d d := fun e he => .inl (hd.source e he)

theorem Tame.node (h : Tame d d₁) (hd : d₁.graph.Numbered) (kind : NodeKind) (label : Label) :
    Tame d (d₁.withNode kind label) := by
  intro e he
  rw [Draft.edges_withNode hd] at he
  exact h e he

theorem Tame.edge {kind : EdgeKind} (h : Tame d d₁)
    (hk : (∃ n, d.graph.Has n ∧ n.id = u.id) ∨ kind = .seq ∨ kind = .err) (label : String) :
    Tame d (d₁.withEdge u v kind label) := by
  intro e he
  obtain rfl | ⟨he, -⟩ := Graph.mem_addEdge.1 he
  · exact hk
  · exact h e he

theorem Tame.append (h : Tame d d₁) (hd : d₁.graph.Numbered) (kind : NodeKind) (label : Label) :
    Tame d (d₁.grown c kind label .seq "") :=
  (h.node hd kind label).edge (.inr (.inl rfl)) ""

theorem Tame.joined {ends : List Node} (h : Tame d d₁) : Tame d (d₁.joined ends v) := by
  induction ends generalizing d₁ with
  | nil => exact h
  | cons n ends ih => exact ih (h.edge (.inr (.inl rfl)) "")

theorem Tame.checks (h : Tame d d₁) (hc : At x d₁ c) (hy : (drawChecks c marks).Yields d₁ n d') :
    Tame d d' := by
  induction marks generalizing c d₁ with
  | nil =>
    simp only [drawChecks, yields_pure] at hy
    obtain ⟨-, rfl⟩ := hy
    exact h
  | cons mark marks ih =>
    refine ih ?_ ((drawn_withCheck hc mark).finish _ rfl).1
      ((yields_drawChecks_cons hc.sound.exit).1 hy)
    exact (h.append hc.sound.numbered .virtual (checkLabel mark)).edge (.inr (.inr rfl)) "Err"

theorem Tame.joinSides (h : Tame d d₁) (hd : d₁.graph.Numbered) (hf : d.graph.Has fork)
    (hy : (joinSides fork yes no).Yields d₁ r d') : Tame d d' := by
  rw [yields_joinSides] at hy
  split at hy
  · obtain ⟨-, rfl⟩ := hy
    have hmet : Tame d ((d₁.withNode .join "fi").joined yes.toList (d₁.fresh .join "fi")) :=
      (h.node hd .join "fi").joined
    cases no with
    | none => exact hmet
    | some n =>
      refine hmet.edge ?_ _
      unfold falseEdge
      split
      next hid => exact .inl ⟨fork, hf, hid.symm⟩
      next => exact .inr (.inl rfl)
  · obtain ⟨-, rfl⟩ := hy
    exact h

end

/-! ## Clauses -/

def wrapped? (e : Tree) : Option Tree :=
  e.children.find? fun w => w.kind = "block" || w.kind = "if_expression"

theorem Statement.ofTree_elseClause {source : Bytes} {e : Tree} (he : e.kind = "else_clause") :
    Statement.ofTree source e =
      .checked (questionMarks e) (.plain ((e.text source).map (summary ""))) := by
  obtain ⟨kind, start, stop, field, children⟩ := e
  obtain rfl : kind = "else_clause" := he
  rfl

theorem Branch.list?_ofTree (source : Bytes) (w : Tree) : ∃ l, (Branch.ofTree source w).list? = some l := by
  unfold Branch.ofTree
  split
  · exact ⟨_, rfl⟩
  · exact ⟨_, rfl⟩

namespace Parted

variable {source : Bytes} {u e : Tree} {c : Node} {d D : Draft} (p : Parted source u c d D)

theorem alternativeAt_elseClause (he : u.child? "alternative" = some e) (hkind : e.kind = "else_clause") :
    alternativeAt source u.children = some (.single
      (.checked (questionMarks e) (.plain ((e.text source).map (summary ""))))) := by
  rw [alternativeAt_eq, ← Tree.child?, he, Option.map_some, Branch.ofTree, if_neg (by rw [hkind]; decide),
    Statement.ofTree_elseClause hkind]

theorem atFalse : At p.exit (p.held.grown p.fork .virtual "False" .condFalse "False")
    (p.held.fresh .virtual "False") :=
  (p.atFork_held.grown .virtual "False" .condFalse "False" (by decide)).stands

theorem yields_elseClause (he : u.child? "alternative" = some e) (hkind : e.kind = "else_clause") :
    ∃ n d₁ label, (e.text source).map (summary "") = .ok label ∧
      (drawChecks (p.held.fresh .virtual "False") (questionMarks e)).Yields
        (p.held.grown p.fork .virtual "False" .condFalse "False") n d₁ ∧
      p.no = some (d₁.fresh .block label) ∧ p.failed = d₁.grown n .block label .seq "" := by
  have hfails := p.fails
  rw [alternativeAt_elseClause he hkind] at hfails
  obtain ⟨n, d₁, hchecks, hplain⟩ :=
    yields_checked.1 (yields_singleton.1 ((yields_side rfl (List.cons_ne_nil _ _)).1 hfails))
  cases hlabel : (e.text source).map (summary "") with
  | error f =>
    rw [hlabel] at hplain
    simp [Statement.draw] at hplain
  | ok label =>
    rw [hlabel, yields_plain] at hplain
    exact ⟨n, d₁, label, rfl, hchecks, hplain⟩

theorem roster_elseClause (he : u.child? "alternative" = some e) (hkind : e.kind = "else_clause")
    {label : String} (hlabel : (e.text source).map (summary "") = .ok label) :
    p.failed.graph.roster = p.held.graph.roster ++
      (.virtual, "False") :: (List.replicate (questionMarks e).length checkFace ++ [(.block, label)]) := by
  have hroster := (drawSide_records p.exit _ _ _ _ _ p.atFork_held p.fails).1
  rw [alternativeAt_elseClause he hkind, sideRoster, Branch.roster, Statement.roster, Statement.roster,
    hlabel] at hroster
  exact hroster

theorem respects_failed {S : Node → Prop} (hS : ∀ n, ¬ S n) : Respects S p.failed p.whole :=
  (respects_joinSides ⟨p.atFork_failed.sound.numbered, List.prefix_rfl, fun n hn => absurd hn (hS n),
    fun _ _ => rfl⟩ (fun n hn => ⟨p.has_yes hn, hS n⟩) (fun n hn => ⟨p.has_no hn, hS n⟩) p.joins).1

theorem ways_elseClause (he : u.child? "alternative" = some e) (hkind : e.kind = "else_clause") {n : Node}
    (hn : p.failed.graph.Has n) (hnew : ¬ p.held.graph.Has n) :
    ∀ k ∈ D.graph.ways n, k = .seq ∨ k = .err := by
  obtain ⟨m, d₁, label, -, hchecks, -, hfailed⟩ := p.yields_elseClause he hkind
  have hm := ((drawChecks_drawn _ p.atFalse hchecks).finish m rfl).1
  have hstart : Tame p.held (p.held.grown p.fork .virtual "False" .condFalse "False") :=
    ((Tame.refl p.atFork_held.sound.numbered).node p.atFork_held.sound.numbered .virtual "False").edge
      (.inl ⟨p.fork, p.atFork_held.footing.has, rfl⟩) "False"
  have hside : Tame p.held p.failed := by
    rw [hfailed]
    exact (hstart.checks p.atFalse hchecks).append hm.sound.numbered .block label
  have htame : Tame p.held p.whole :=
    hside.joinSides p.atFork_failed.sound.numbered p.atFork_held.footing.has p.joins
  have hwhole := p.respects_failed (S := fun _ => False) fun _ => id
  have hold : ∀ {k : Node}, p.held.graph.Has k → p.failed.graph.Has k :=
    (p.atFork_held.growsOf p.drawn_fails.run).has
  have hinside : Inside d p.next p.whole n := by
    refine ⟨hwhole.has hn, fun h => hnew ?_, p.next_ne hn⟩
    exact (p.atFork.growsOf p.drawn_holds.run).has
      ((p.atStart.growsOf (drawn_withCond p.atStart p.label).run).has (p.has_checked h))
  intro k hk
  obtain ⟨g, hg, rfl⟩ := List.mem_map.1 hk
  rw [p.after.outgoing n hinside, Graph.outgoing, List.mem_filter] at hg
  rcases htame g hg.1 with ⟨v, hv, hid⟩ | hkind
  · have hid : v.id = n.id := hid.trans (by simpa using hg.2)
    exact absurd (hwhole.numbered.eq_of_id (hwhole.has (hold hv)) (hwhole.has hn) hid ▸ hv) hnew
  · exact hkind

def Unwraps (w : Tree) : Prop :=
  (drawSide p.fork (some (Branch.ofTree source w))).Yields p.held p.no p.failed

theorem unwraps_iff (he : u.child? "alternative" = some e) (hkind : e.kind = "else_clause")
    {label : String} (hlabel : (e.text source).map (summary "") = .ok label) (w : Tree) :
    p.Unwraps w ↔ ∃ s, (Branch.ofTree source w).list? = some [s] ∧
      s.asPlain = some (questionMarks e, label) := by
  obtain ⟨n, d₁, label', hlabel', hchecks, hno, hfailed⟩ := p.yields_elseClause he hkind
  obtain rfl : label = label' := Except.ok.inj (hlabel.symm.trans hlabel')
  obtain ⟨l, hl⟩ := Branch.list?_ofTree source w
  unfold Unwraps drawSide
  rw [hl]
  constructor
  · intro h
    have hroster := p.roster_elseClause he hkind hlabel
    cases l with
    | nil =>
      -- an empty block would leave the flow at the fork
      have hsame := ways_side p.atFork_held (by decide) hl h
      have hfork : p.fork = d₁.fresh .block label := Option.some.inj ((hsame.1.2 rfl).symm.trans hno)
      cases congrArg Node.kind hfork
    | cons s rest =>
      rw [yields_side hl (List.cons_ne_nil s rest), hno] at h
      have hblock := (drawAll_records p.exit _ _ _ _ _ p.atFalse h).1
      rw [hroster, Draft.roster_grown p.atFork_held.sound.numbered p.atFork_held.footing.has,
        List.append_assoc] at hblock
      obtain ⟨s', marks, hs', hplain⟩ := asPlain_of_block p.atFalse h
        (List.cons.inj (List.append_cancel_left hblock)).2.symm
      rw [hs', yields_singleton, yields_of_asPlain hplain] at h
      obtain ⟨n', d₁', hchecks', -, hfailed'⟩ := h
      obtain rfl : marks = questionMarks e :=
        marks_inj p.atFalse hchecks' hchecks (hfailed'.symm.trans hfailed)
      exact ⟨s', congrArg some hs', hplain⟩
  · rintro ⟨s, hs, hplain⟩
    obtain rfl := Option.some.inj hs
    rw [yields_side hl (List.cons_ne_nil s []), yields_singleton, yields_of_asPlain hplain]
    exact ⟨n, d₁, hchecks, hno, hfailed⟩

end Parted

/-- The nodes and edges that are drawn for a clause: one block behind the checks, and never a fork, an
exit or a jump. What the clause wraps is drawn only if it is one plain statement that looks the same. -/
theorem elseClause_unwraps_iff {source : Bytes} {describe : String → Except DrawFault Value} {t u e : Tree}
    {D d : Draft} {c : Node} {rest : List Statement} (hd : draft source describe t = (.ok (), D))
    (h : Visited source describe t ⟨.block (.ofTree source u :: rest), c, d⟩)
    (hu : u.kind = "if_expression") (he : u.child? "alternative" = some e) (hkind : e.kind = "else_clause") :
    ∃ (p : Parted source u c d D) (label : String), (e.text source).map (summary "") = .ok label ∧
      p.failed.graph.roster = p.held.graph.roster ++
        (.virtual, "False") :: (List.replicate (questionMarks e).length checkFace ++ [(.block, label)]) ∧
      (∀ n, p.failed.graph.Has n → ¬ p.held.graph.Has n → ∀ k ∈ D.graph.ways n, k = .seq ∨ k = .err) ∧
      p.next.isSome ∧
      ∀ w, wrapped? e = some w → (p.Unwraps w ↔ ∃ s, (Branch.ofTree source w).list? = some [s] ∧
        s.asPlain = some (questionMarks e, label)) := by
  obtain ⟨p⟩ := h.parted hd hu
  obtain ⟨n, d₁, label, hlabel, -, hno, -⟩ := p.yields_elseClause he hkind
  refine ⟨p, label, hlabel, p.roster_elseClause he hkind hlabel,
    fun n hn hnew => p.ways_elseClause he hkind hn hnew, ?_, fun w _ => p.unwraps_iff he hkind hlabel w⟩
  have hjoins := yields_joinSides.1 p.joins
  rw [hno, Option.isSome_some, Bool.or_true, if_pos rfl] at hjoins
  rw [hjoins.1]
  rfl

def escapeCode : Bytes :=
  "fn f() \x7b while a \x7b if b \x7b x \x7d else \x7b break \x7d \x7d \x7d".toUTF8.toList

def escapeBlock : Tree := .node "block" 35 44 none [.node "break_expression" 37 42 none []]

def escapeCondition : Tree :=
  .node "if_expression" 19 44 none
    [.node "identifier" 22 23 (some "condition") [],
     .node "block" 24 29 (some "consequence") [.node "identifier" 26 27 none []],
     .node "else_clause" 30 44 (some "alternative") [.node "else" 30 34 none [], escapeBlock]]

def escape : Tree :=
  .node "function_item" 0 48 none
    [.node "identifier" 3 4 (some "name") [],
     .node "block" 7 48 (some "body")
      [.node "while_expression" 9 46 none
        [.node "identifier" 15 16 (some "condition") [],
         .node "block" 17 46 (some "body") [escapeCondition]]]]

theorem visited_escape : ∃ c d, Visited escapeCode (fun _ => .ok (.str "")) escape
    ⟨.block [.ofTree escapeCode escapeCondition], c, d⟩ := by
  have hname : (Function.ofTree escapeCode escape).name = .ok "f" := by decide +kernel
  have hlabel : headLabel "while " "" (Tree.fieldText escapeCode "condition"
      [.node "identifier" 15 16 (some "condition") [],
       .node "block" 17 46 (some "body") [escapeCondition]]) = .ok "while a" := by decide +kernel
  have hbody : (Function.ofTree escapeCode escape).body = .braces [.checked [] (.loop .whileTrue
      (.ok "while a") (.braces [.ofTree escapeCode escapeCondition]))] := by
    rw [← hlabel]
    rfl
  have hroot : Visited escapeCode (fun _ => .ok (.str "")) escape (rootSpot "f" (.str "") _) :=
    ⟨"f", .str "", _, hname, rfl, hbody, .refl⟩
  exact ⟨_, _, hroot.unmarked.next (.inside (.loop _ _ rfl))⟩

theorem escape_not_unwrapped : ∃ D c d,
    draft escapeCode (fun _ => .ok (.str "")) escape = (.ok (), D) ∧
      Visited escapeCode (fun _ => .ok (.str "")) escape
        ⟨.block [.ofTree escapeCode escapeCondition], c, d⟩ ∧
      (Branch.ofTree escapeCode escapeBlock).list? = some [.checked [] .breakLoop] ∧
      ∃ p : Parted escapeCode escapeCondition c d D, p.failed.graph.roster =
        p.held.graph.roster ++ [(.virtual, "False"), (.block, "else \x7b break \x7d")] ∧
        p.next.isSome ∧ ¬ p.Unwraps escapeBlock := by
  have hok : (draft escapeCode (fun _ => .ok (.str "")) escape).1 = .ok () := by decide +kernel
  obtain ⟨D, hD⟩ : ∃ D, draft escapeCode (fun _ => .ok (.str "")) escape = (.ok (), D) :=
    ⟨_, Prod.ext hok rfl⟩
  obtain ⟨c, d, hvisited⟩ := visited_escape
  obtain ⟨p, label, hlabel, hroster, -, hnext, hiff⟩ :=
    elseClause_unwraps_iff hD hvisited rfl rfl rfl
  have hlist : (Branch.ofTree escapeCode escapeBlock).list? = some [.checked [] .breakLoop] := rfl
  obtain rfl : "else \x7b break \x7d" = label := by
    refine Except.ok.inj (Eq.trans ?_ hlabel)
    decide +kernel
  refine ⟨D, c, d, hD, hvisited, hlist, p, hroster.trans ?_, hnext, fun hkept => ?_⟩
  · simp [questionMarks, questionMarksAmong, escapeBlock]
  · obtain ⟨s, hs, hplain⟩ := (hiff escapeBlock rfl).1 hkept
    rw [hlist] at hs
    cases hs
    simp [Statement.asPlain] at hplain

end Workbench.Flow.Braced
