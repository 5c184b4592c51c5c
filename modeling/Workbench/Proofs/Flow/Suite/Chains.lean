import Workbench.Proofs.Flow.Suite.Endings
import Workbench.Proofs.Flow.Suite.Visits

/-!
# Chains of conditions

A condition may have any number of further conditions behind it, and a last suite for the case that
none of them holds. Drawing looks at the first of these clauses only. So a chain without further
conditions is drawn as a whole. In any other one the first further condition leads nowhere when it
fails, the clauses behind it are passed over, and they have no say in whether the flow goes on.
-/

namespace Workbench.Flow

/-! ## Edges from one name -/

namespace Draft

def outs (d : Draft) (id : String) : List Edge := d.strokes.filter fun e => e.source == id

variable {d d' : Draft} {id : String}

theorem outs_of_later (hs : ∀ e ∈ d.strokes, ¬ d.Later e.source) (hid : d.Later id) : d.outs id = [] := by
  refine List.filter_eq_nil_iff.2 fun e he hsource => hs e he ?_
  rwa [beq_iff_eq.1 hsource]

theorem outs_traced {A : String → Prop} {known : List Node} (h : Traced A d known d') (hA : ¬ A id)
    (hid : ¬ d.Later id) : d'.outs id = d.outs id := by
  obtain ⟨l, hl, hsources⟩ := h.strokes
  have hnone : l.filter (fun e => e.source == id) = [] := by
    refine List.filter_eq_nil_iff.2 fun e he hsource => ?_
    have hid' := hsources e he
    rw [beq_iff_eq.1 hsource] at hid'
    exact hid'.elim hA fun hnew => hid hnew.1
  rw [outs, hl, List.filter_append, hnone, List.append_nil]
  rfl

theorem outs_within {n : Node} {known : List Node} (h : Traced (· = n.id) d known d')
    (hid : ¬ d.Later id) (hne : id ≠ n.id) : d'.outs id = d.outs id ∧ ∀ m ∈ known, m.id ≠ id := by
  refine ⟨outs_traced h hne hid, ?_⟩
  rintro m hm rfl
  exact (h.known m hm).elim hne fun hnew => hid hnew.1

theorem outs_grown (d : Draft) (c : Node) (kind : NodeKind) (label : Label) (edge : EdgeKind)
    (edgeLabel : String) (id : String) :
    (d.grown c kind label edge edgeLabel).outs id =
      d.outs id ++ if c.id = id then [⟨c.id, (d.fresh kind label).id, edge, edgeLabel⟩] else [] := by
  have hstrokes : (d.grown c kind label edge edgeLabel).strokes =
      d.strokes ++ [⟨c.id, (d.fresh kind label).id, edge, edgeLabel⟩] := rfl
  rw [outs, hstrokes, List.filter_append]
  by_cases hid : c.id = id <;> simp [hid, outs]

theorem mem_outs {e : Edge} : e ∈ d.outs id ↔ e ∈ d.strokes ∧ e.source = id := by
  simp [outs]

theorem mem_outs_of_edge {e : Edge} (hedges : d.graph.edges = d.strokes) (he : e ∈ d.graph.edges) :
    e ∈ d.outs e.source :=
  mem_outs.2 ⟨hedges ▸ he, rfl⟩

theorem ne_of_later {a b : String} (ha : d.Later a) (hb : ¬ d.Later b) : a ≠ b :=
  fun h => hb (h ▸ ha)

end Draft

namespace Suite

open Drawing
open Draft (New)

theorem outs_withFork (d : Draft) (c : Node) (s id : String) : (withFork d c s).outs id =
    d.outs id ++ (if c.id = id then [⟨c.id, (d.fresh .fork s).id, .seq, ""⟩] else []) ++
      if (d.fresh .fork s).id = id then
        [⟨(d.fresh .fork s).id, (forkStart d c s).id, .condTrue, "True"⟩] else [] := by
  rw [withFork, Draft.outs_grown, Draft.outs_grown]
  rfl

/-! ## Chains -/

structure Clause where
  label : Tree.Excerpt
  body : List Statement

structure Chain where
  head : Clause
  elseIfs : List Clause
  -- the suite for the case that no condition holds
  last : Option (List Statement)

def suiteAt? (source : Bytes) (name : String) (children : List Tree) : Option (List Statement) :=
  match bodyAt source name children with
  | .missing => none
  | .suite l => some l

/-- The clauses behind the first: further conditions, and then perhaps a last suite. -/
def clauses? (source : Bytes) : List Tree → Option (List Clause × Option (List Statement))
  | [] => some ([], none)
  | t :: ts =>
    if t.kind = "elif_clause" then do
      let l ← suiteAt? source "consequence" t.children
      let (rest, last) ← clauses? source ts
      return (⟨headLabel "elif " "" (Tree.fieldText source "condition" t.children), l⟩ :: rest, last)
    else if t.kind = "else_clause" ∧ ts.isEmpty then do
      return ([], some (← suiteAt? source "body" t.children))
    else none

/-- Reads a chain from its tree, in which all clauses behind the first fill one field. -/
def Chain.ofTree? (source : Bytes) (t : Tree) : Option Chain :=
  if t.kind = "if_statement" then do
    let l ← suiteAt? source "consequence" t.children
    let (elseIfs, last) ← clauses? source (t.children.filter fun u => u.field = some "alternative")
    return ⟨⟨headLabel "if " "" (Tree.fieldText source "condition" t.children), l⟩, elseIfs, last⟩
  else none

namespace Chain

def alternative (ch : Chain) : Alternative :=
  match ch.elseIfs, ch.last with
  | e :: _, _ => .elseIf e.label (.suite e.body)
  | [], some l => .otherwise (.suite l)
  | [], none => .none

theorem alternative_of_cons {ch : Chain} {e : Clause} {es : List Clause} (h : ch.elseIfs = e :: es) :
    ch.alternative = .elseIf e.label (.suite e.body) := by
  simp [alternative, h]

theorem alternative_of_last {ch : Chain} {l : List Statement} (hnil : ch.elseIfs = [])
    (hlast : ch.last = some l) : ch.alternative = .otherwise (.suite l) := by
  simp [alternative, hnil, hlast]

def suites (ch : Chain) : List (List Statement) :=
  ch.head.body :: ch.elseIfs.map Clause.body ++ ch.last.toList

/-- One of the clauses is taken in any case, and none of them goes on. -/
def Diverges (ch : Chain) : Prop := ch.last.isSome ∧ ∀ l ∈ ch.suites, allGoOn l = false

end Chain

/-- When the condition at a fork fails the flow comes to a node, at once or through one other. -/
def FailsTo (g : Graph) (fork t : Node) : Prop :=
  ∃ label, (⟨fork.id, t.id, .condFalse, label⟩ : Edge) ∈ g.edges ∨
    ∃ v, (⟨fork.id, v, .condFalse, label⟩ : Edge) ∈ g.edges ∧ (⟨v, t.id, .seq, ""⟩ : Edge) ∈ g.edges

/-- The fork stands for the condition of a clause, and from there the flow comes to its suite. -/
structure Tried (g : Graph) (processed : List Statement → Node → Prop) (cl : Clause) (fork : Node) :
    Prop where
  node : g.node? fork.id = some fork
  kind : fork.kind = .fork
  label : cl.label = .ok fork.label
  holds : ∃ start : Node, (⟨fork.id, start.id, .condTrue, "True"⟩ : Edge) ∈ g.edges ∧
    processed cl.body start

/-- When the condition at a fork fails then the clauses that are left are tried one after the other. -/
inductive Chained (g : Graph) (processed : List Statement → Node → Prop) (join : Option Node) :
    Node → List Clause → Option (List Statement) → Prop
  | elseIf {fork next e es last} : FailsTo g fork next → Tried g processed e next →
      Chained g processed join next es last → Chained g processed join fork (e :: es) last
  | otherwise {fork start l} : FailsTo g fork start → processed l start →
      Chained g processed join fork [] (some l)
  | through {fork n} : join = some n → FailsTo g fork n → Chained g processed join fork [] none

theorem FailsTo.edge {g : Graph} {fork t : Node} (h : FailsTo g fork t) :
    ∃ id label, (⟨fork.id, id, .condFalse, label⟩ : Edge) ∈ g.edges := by
  obtain ⟨label, h | ⟨v, h, -⟩⟩ := h
  · exact ⟨t.id, label, h⟩
  · exact ⟨v, label, h⟩

theorem Chained.failsTo {g : Graph} {processed : List Statement → Node → Prop} {join : Option Node}
    {fork : Node} {es : List Clause} {last : Option (List Statement)}
    (h : Chained g processed join fork es last) : ∃ t, FailsTo g fork t := by
  cases h with
  | elseIf h _ _ => exact ⟨_, h⟩
  | otherwise h _ => exact ⟨_, h⟩
  | through _ h => exact ⟨_, h⟩

/-- The whole chain is in the graph, and the flow goes on behind it unless it diverges. -/
structure Chain.Followed (ch : Chain) (g : Graph) (processed : List Statement → Node → Prop)
    (fork : Node) (next : Option Node) : Prop where
  head : Tried g processed ch.head fork
  rest : Chained g processed next fork ch.elseIfs ch.last
  after : next.isSome ↔ ¬ ch.Diverges

/-- Of the chain two conditions are in the graph. The second one leads on only when it holds, and the
flow goes on if it comes to the end of one of the two suites. -/
structure Chain.Cut (ch : Chain) (e : Clause) (g : Graph) (processed : List Statement → Node → Prop)
    (fork : Node) (next : Option Node) : Prop where
  head : Tried g processed ch.head fork
  second : ∃ fork' start : Node, FailsTo g fork fork' ∧ Tried g processed e fork' ∧
    g.outgoing fork' = [⟨fork'.id, start.id, .condTrue, "True"⟩]
  after : next.isSome ↔ allGoOn ch.head.body ∨ allGoOn e.body

section
variable {source : Bytes} {children : List Tree} {t : Tree} {ch : Chain}

theorem bodyAt_of_suiteAt? {name : String} {l : List Statement}
    (h : suiteAt? source name children = some l) : bodyAt source name children = .suite l := by
  unfold suiteAt? at h
  split at h
  · cases h
  next hl =>
    cases h
    exact hl

theorem alternativeAt_eq (source : Bytes) (children : List Tree) :
    alternativeAt source children =
      (children.filter fun u => u.field = some "alternative").head?.elim .none
        fun u => alternativeAt source [u] := by
  induction children with
  | nil => rfl
  | cons u us ih =>
    obtain ⟨kind, start, stop, field, cs⟩ := u
    by_cases hf : field = some "alternative"
    · simp [alternativeAt, Tree.field, hf]
    · simp [alternativeAt, Tree.field, hf, ih]

theorem alternative_of_clauses? {ts : List Tree} {elseIfs : List Clause} {last : Option (List Statement)}
    (hfield : ∀ u ∈ ts, u.field = some "alternative") (h : clauses? source ts = some (elseIfs, last))
    (head : Clause) :
    (ts.head?.elim .none fun u => alternativeAt source [u]) = Chain.alternative ⟨head, elseIfs, last⟩ := by
  cases ts with
  | nil =>
    cases h
    rfl
  | cons u us =>
    have hf := hfield u List.mem_cons_self
    rw [clauses?] at h
    split at h
    next hkind =>
      simp only [Option.bind_eq_bind, Option.bind_eq_some_iff, Option.pure_def] at h
      obtain ⟨l, hl, ⟨rest, last'⟩, -, h⟩ := h
      cases h
      obtain ⟨kind, start, stop, field, cs⟩ := u
      obtain rfl : kind = "elif_clause" := hkind
      obtain rfl : field = some "alternative" := hf
      have hbody : bodyAt source "consequence" cs = .suite l := bodyAt_of_suiteAt? hl
      simp [alternativeAt, Chain.alternative, hbody, Tree.children]
    next =>
      split at h
      next hkind =>
        simp only [Option.bind_eq_bind, Option.bind_eq_some_iff, Option.pure_def] at h
        obtain ⟨l, hl, h⟩ := h
        cases h
        obtain ⟨kind, start, stop, field, cs⟩ := u
        obtain rfl : kind = "else_clause" := hkind.1
        obtain rfl : field = some "alternative" := hf
        have hbody : bodyAt source "body" cs = .suite l := bodyAt_of_suiteAt? hl
        simp [alternativeAt, Chain.alternative, hbody]
      next => cases h

theorem Chain.ofTree_eq (h : Chain.ofTree? source t = some ch) :
    Statement.ofTree source t = .cond ch.head.label (.suite ch.head.body) ch.alternative := by
  rw [Chain.ofTree?] at h
  split at h
  next hkind =>
    simp only [Option.bind_eq_bind, Option.bind_eq_some_iff, Option.pure_def] at h
    obtain ⟨l, hl, ⟨elseIfs, last⟩, hclauses, h⟩ := h
    cases h
    have halt := alternative_of_clauses? (by simp) hclauses
      ⟨headLabel "if " "" (Tree.fieldText source "condition" t.children), l⟩
    rw [← alternativeAt_eq] at halt
    obtain ⟨kind, start, stop, field, cs⟩ := t
    obtain rfl : kind = "if_statement" := hkind
    rw [← halt]
    simp only [Statement.ofTree, Tree.children] at hl ⊢
    rw [bodyAt_of_suiteAt? hl]
  next => cases h

end

/-! ## What is drawn for a chain -/

section
variable {c fork : Node} {d d₁ d₂ d₃ d' D : Draft} {ls : List Level} {s s' id : String} {body suite : Body}
  {yes no next : Option Node}

/-- Behind two sides that were drawn, nothing more is drawn from inside them. -/
theorem outs_closed (hclose : (closeCond fork yes (.drawn no)).Yields d₁ next d')
    (hafter : Traced (Outside d next.toList d') d' [] D) (hnew : New d d₁ id)
    (hyes : ∀ n ∈ yes.toList, n.id ≠ id) (hno : ∀ n ∈ no.toList, n.id ≠ id) :
    D.outs id = d₁.outs id := by
  have hends : Traced (fun i => ∃ n ∈ yes.toList ++ no.toList, i = n.id) d₁ (yes.toList ++ no.toList) d₁ :=
    .start fun n hn => ⟨n, hn, rfl⟩
  obtain ⟨hjoin, -⟩ := traced_closeDrawn hends (fun n hn => List.mem_append_left _ hn)
    (fun n hn => List.mem_append_right _ hn) hclose
  have hid : ¬ ∃ n ∈ yes.toList ++ no.toList, id = n.id := by
    rintro ⟨n, hn, rfl⟩
    exact (List.mem_append.1 hn).elim (fun h => hyes n h rfl) fun h => hno n h rfl
  -- the flow goes on from a join that comes in only now
  have hnext : ¬ ∃ n ∈ next.toList, id = n.id := by
    rintro ⟨n, hn, rfl⟩
    exact (hjoin.known n hn).elim hid fun hn => hnew.2 hn.1
  have hnew' := hnew.right hjoin.counter
  rw [Draft.outs_traced hafter (fun hout => hout.elim (fun h => h hnew') hnext) hnew'.2,
    Draft.outs_traced hjoin hid hnew.2]

theorem fork_ne_forkStart (d d' : Draft) (c : Node) (s s' : String) :
    (d.fresh .fork s).id ≠ (forkStart d' c s').id := by
  intro (h : nodeId .fork _ = nodeId .virtual _)
  cases (nodeId_inj h).1

theorem later_forkStart (d : Draft) (c : Node) (s : String) : d.Later (forkStart d c s).id :=
  (Draft.later_fresh _ .virtual "True").mono (traced_grown c d .fork s .seq "").counter

theorem outs_fork (hc : ¬ d.Later c.id) (hs : ∀ e ∈ d.strokes, ¬ d.Later e.source)
    (hbody : (body.draw (forkStart d c s)).Yields (withFork d c s) yes d₁) :
    d₁.outs (d.fresh .fork s).id =
        [⟨(d.fresh .fork s).id, (forkStart d c s).id, .condTrue, "True"⟩] ∧
      ∀ n ∈ yes.toList, n.id ≠ (d.fresh .fork s).id := by
  have hfork := d.later_fresh .fork s
  have hold : ¬ (withFork d c s).Later (d.fresh .fork s).id :=
    (traced_withFork c d s).not_later hc (by simp)
  obtain ⟨houts, hends⟩ := Draft.outs_within (body.traces _ _ _ _ hbody).1 hold
    (fork_ne_forkStart d d c s s)
  refine ⟨?_, hends⟩
  rw [houts, outs_withFork, Draft.outs_of_later hs hfork, if_neg (Draft.ne_of_later hfork hc).symm,
    if_pos rfl]
  rfl

/-- Of the names from before, only the one where the flow stands leads to the new fork. -/
theorem outs_before (hid : ¬ d.Later id)
    (hbody : (body.draw (forkStart d c s)).Yields (withFork d c s) yes d₁) :
    d₁.outs id = d.outs id ++ (if c.id = id then [⟨c.id, (d.fresh .fork s).id, .seq, ""⟩] else []) ∧
      ∀ n ∈ yes.toList, n.id ≠ id := by
  have hold : ¬ (withFork d c s).Later id := fun h => hid (h.mono (traced_withFork c d s).counter)
  obtain ⟨houts, hends⟩ := Draft.outs_within (body.traces _ _ _ _ hbody).1 hold
    (Draft.ne_of_later (later_forkStart d c s) hid).symm
  refine ⟨?_, hends⟩
  rw [houts, outs_withFork, if_neg (Draft.ne_of_later (d.later_fresh .fork s) hid), List.append_nil]

/-- The edges that are drawn for two conditions, one behind the other. The second has one way on. -/
structure Dangling (D : Draft) (fork start v fork' start' : Node) : Prop where
  fork : D.outs fork.id =
    [⟨fork.id, start.id, .condTrue, "True"⟩, ⟨fork.id, v.id, .condFalse, "False"⟩]
  side : D.outs v.id = [⟨v.id, fork'.id, .seq, ""⟩]
  fork' : D.outs fork'.id = [⟨fork'.id, start'.id, .condTrue, "True"⟩]

theorem dangling_elseIf {v : Node} (hfit : Fit ls c d) (hv : v = d₁.fresh .virtual "False")
    (hd₂ : d₂ = d₁.grown (d.fresh .fork s) .virtual "False" .condFalse "False")
    (hyes : (body.draw (forkStart d c s)).Yields (withFork d c s) yes d₁)
    (hno : (suite.draw (forkStart d₂ v s')).Yields (withFork d₂ v s') no d₃)
    (hclose : (closeCond (d.fresh .fork s) yes (.drawn no)).Yields d₃ next d')
    (hafter : Traced (Outside d next.toList d') d' [] D) :
    Dangling D (d.fresh .fork s) (forkStart d c s) v (d₂.fresh .fork s') (forkStart d₂ v s') := by
  have hbody := (traced_withFork c d s).step (by simp) (body.traces _ _ _ _ hyes).1
  have hside := (traced_falseSide hyes).1
  rw [← hv, ← hd₂] at hside
  have hsuite := (traced_withFork v d₂ s').step (by simp) (suite.traces _ _ _ _ hno).1
  have hle : d₁.graph.counter ≤ d₂.graph.counter := by
    rw [hd₂]
    exact (traced_grown _ d₁ .virtual "False" .condFalse "False").counter
  have hle' : d.graph.counter ≤ d₂.graph.counter := hside.counter
  -- each name comes in at its time: the fork, the node on its false side, and then the other fork
  have fork_old : ¬ d₁.Later (d.fresh .fork s).id := hbody.not_later hfit.current (by simp)
  have fork_old₂ : ¬ d₂.Later (d.fresh .fork s).id := fun h => fork_old (h.mono hle)
  have v_later : d₁.Later v.id := hv ▸ d₁.later_fresh .virtual "False"
  have v_old : ¬ d₂.Later v.id := hside.not_later hfit.current (by simp)
  have fork'_later : d₂.Later (d₂.fresh .fork s').id := d₂.later_fresh .fork s'
  have yes_old : ∀ n ∈ yes.toList, ¬ d₁.Later n.id := fun n hn =>
    hbody.not_later hfit.current (List.mem_append_right _ hn)
  have hsources₁ := hbody.sources hfit.current hfit.sources
  have hsources₂ := hside.sources hfit.current hfit.sources
  have houts₂ : ∀ id, d₂.outs id = d₁.outs id ++
      if (d.fresh .fork s).id = id then [⟨(d.fresh .fork s).id, v.id, .condFalse, "False"⟩] else [] := by
    intro id
    rw [hd₂, hv]
    exact Draft.outs_grown ..
  refine ⟨?_, ?_, ?_⟩
  · obtain ⟨houts, hyes_ne⟩ := outs_fork hfit.current hfit.sources hyes
    obtain ⟨hsame, hno_ne⟩ := outs_before fork_old₂ hno
    have hnew : New d d₃ (d.fresh .fork s).id :=
      ⟨d.later_fresh .fork s, fun h => fork_old₂ (h.mono hsuite.counter)⟩
    rw [outs_closed hclose hafter hnew hyes_ne hno_ne, hsame, if_neg (Draft.ne_of_later v_later fork_old),
      houts₂, if_pos rfl, houts]
    rfl
  · obtain ⟨hstep, hno_ne⟩ := outs_before v_old hno
    have hnew : New d d₃ v.id :=
      ⟨v_later.mono hbody.counter, fun h => v_old (h.mono hsuite.counter)⟩
    rw [outs_closed hclose hafter hnew
      (fun n hn => (Draft.ne_of_later v_later (yes_old n hn)).symm) hno_ne, hstep, if_pos rfl, houts₂,
      if_neg (Draft.ne_of_later v_later fork_old).symm, Draft.outs_of_later hsources₁ v_later]
    rfl
  · obtain ⟨houts, hno_ne⟩ := outs_fork v_old hsources₂ hno
    have hnew : New d d₃ (d₂.fresh .fork s').id :=
      ⟨fork'_later.mono hle', hsuite.not_later v_old (by simp)⟩
    rw [outs_closed hclose hafter hnew
      (fun n hn => (Draft.ne_of_later (fork'_later.mono hle) (yes_old n hn)).symm) hno_ne, houts]

end

section
variable {c fork : Node} {d d₁ d₂ d₃ d' D : Draft} {ls : List Level} {s s' : String}
  {yes no next : Option Node} {side : FalseSide} {processed : List Statement → Node → Prop} {ch : Chain}
  {e : Clause} {es : List Clause}

theorem tried_fork {A : String → Prop} {known : List Node} {cl : Clause} (hlabel : cl.label = .ok s)
    (hc : ¬ d.Later c.id) (ht : Traced A (withFork d c s) known D) (hedges : D.graph.edges = D.strokes)
    (hbody : processed cl.body (forkStart d c s)) :
    Tried D.graph processed cl (d.fresh .fork s) where
  node := by
    have hfork := (traced_grown (d.fresh .fork s) _ .virtual "True" .condTrue "True").nodes _
      ((traced_grown c d .fork s .seq "").not_later hc (by simp)) (d.node?_grown c .fork s .seq "")
    exact ht.nodes _ ((traced_withFork c d s).not_later hc (by simp)) hfork
  kind := rfl
  label := hlabel
  holds := by
    refine ⟨forkStart d c s, ?_, hbody⟩
    rw [hedges]
    exact ht.strokes_prefix.subset (List.mem_append_right _ List.mem_cons_self)

theorem traced_rest {A B : String → Prop} {known known' : List Node} (h : Traced A d known d₁)
    (hclose : (closeCond fork yes side).Yields d₁ next d') (hafter : Traced B d' known' D) :
    Traced (fun _ => True) d [] D := by
  have hend := (traced_closeCond (h.anywhere ([fork] ++ yes.toList ++ side.ends)) (by simp)
    (by simp +contextual) (by simp +contextual) hclose).1
  exact (hend.trans hafter fun _ _ => .inl trivial).mono nofun

theorem failsTo_join (hclose : (closeCond fork yes .bare).Yields d₁ next d') :
    ∃ n, next = some n ∧ (⟨fork.id, n.id, .condFalse, "False"⟩ : Edge) ∈ d'.strokes := by
  simp only [closeCond, yields_bind, yields_addNode, yields_followFrom, yields_addEdge, yields_pure]
    at hclose
  obtain ⟨_, _, ⟨rfl, rfl⟩, _, _, rfl, _, _, rfl, rfl, rfl⟩ := hclose
  exact ⟨_, rfl, List.mem_append_right _ List.mem_cons_self⟩

theorem Chain.chained_of_nil {A : String → Prop} {known : List Node} (hnil : ch.elseIfs = [])
    (hside : (ch.alternative.draw fork).Yields d₁ side d₂)
    (hclose : (closeCond fork yes side).Yields d₂ next d') (hafter : Traced A d' known D)
    (hedges : D.graph.edges = D.strokes)
    (hlast : ∀ l, ch.last = some l → processed l (d₁.fresh .virtual "False")) :
    Chained D.graph processed next fork ch.elseIfs ch.last := by
  obtain ⟨head, elseIfs, last⟩ := ch
  obtain rfl : elseIfs = [] := hnil
  cases last with
  | none =>
    simp only [Chain.alternative, Alternative.draw, yields_pure] at hside
    obtain ⟨rfl, rfl⟩ := hside
    obtain ⟨n, hn, hedge⟩ := failsTo_join hclose
    refine .through hn ⟨"False", .inl ?_⟩
    rw [hedges]
    exact hafter.strokes_prefix.subset hedge
  | some l =>
    simp only [Chain.alternative, Alternative.draw, yields_bind, yields_branch, yields_pure] at hside
    obtain ⟨_, _, ⟨rfl, rfl⟩, finish, _, hbody, rfl, rfl⟩ := hside
    refine .otherwise ⟨"False", .inl ?_⟩ (hlast l rfl)
    rw [hedges]
    have hrest := traced_rest (Body.traces _ _ _ _ _ hbody).1 hclose hafter
    exact hrest.strokes_prefix.subset (List.mem_append_right _ List.mem_cons_self)

theorem Chain.isSome_iff (hy : (Statement.draw c
    (.cond ch.head.label (.suite ch.head.body) ch.alternative)).Yields d next d') :
    next.isSome ↔ allGoOn ch.head.body ∨ ch.alternative.goesOn := by
  rw [Statement.isSome_of_yields _ hy, Statement.goesOn, Body.goesOn, Bool.or_eq_true]

theorem Chain.not_diverges_iff (hnil : ch.elseIfs = []) :
    ¬ ch.Diverges ↔ allGoOn ch.head.body ∨ ch.alternative.goesOn := by
  obtain ⟨head, elseIfs, last⟩ := ch
  obtain rfl : elseIfs = [] := hnil
  cases last with
  | none => simp [Chain.Diverges, Chain.alternative, Alternative.goesOn]
  | some l =>
    simp only [Chain.Diverges, Chain.suites, Chain.alternative, Alternative.goesOn, Body.goesOn]
    cases hhead : allGoOn head.body <;> cases hl : allGoOn l <;> simp [hhead, hl]

namespace Dangling

variable {start v fork' start' : Node}

theorem failsTo (h : Dangling D fork start v fork' start') (hedges : D.graph.edges = D.strokes) :
    FailsTo D.graph fork fork' := by
  have hfalse : (⟨fork.id, v.id, .condFalse, "False"⟩ : Edge) ∈ D.outs fork.id := by simp [h.fork]
  have hseq : (⟨v.id, fork'.id, .seq, ""⟩ : Edge) ∈ D.outs v.id := by simp [h.side]
  refine ⟨"False", .inr ⟨v.id, ?_, ?_⟩⟩
  · exact hedges ▸ (Draft.mem_outs.1 hfalse).1
  · exact hedges ▸ (Draft.mem_outs.1 hseq).1

theorem not_chained (h : Dangling D fork start v fork' start') (hedges : D.graph.edges = D.strokes)
    {join : Option Node} {last : Option (List Statement)} :
    ¬ Chained D.graph processed join fork (e :: es) last := by
  intro hchained
  cases hchained with
  | @elseIf _ n _ _ _ hfails _ hrest =>
    -- whatever the clauses left are, a failure at the next fork leads on
    obtain ⟨t, ht⟩ := hrest.failsTo
    obtain ⟨id, label, hedge⟩ := ht.edge
    have hout := Draft.mem_outs_of_edge hedges hedge
    obtain ⟨label', hdirect | ⟨w, hw, hseq⟩⟩ := hfails
    · have hv := Draft.mem_outs_of_edge hedges hdirect
      rw [h.fork] at hv
      obtain ⟨hv, -⟩ : n.id = v.id ∧ label' = "False" := by simpa using hv
      dsimp only at hout
      rw [hv, h.side] at hout
      simp at hout
    · have hv := Draft.mem_outs_of_edge hedges hw
      rw [h.fork] at hv
      obtain ⟨rfl, -⟩ : w = v.id ∧ label' = "False" := by simpa using hv
      have hn := Draft.mem_outs_of_edge hedges hseq
      rw [h.side] at hn
      have hn : n.id = fork'.id := by simpa using hn
      dsimp only at hout
      rw [hn, h.fork'] at hout
      simp at hout

end Dangling

theorem Chain.dangling_of_cons (hcons : ch.elseIfs = e :: es) (hfit : Fit ls c d)
    (hyes : (Body.draw (forkStart d c s) (.suite ch.head.body)).Yields (withFork d c s) yes d₁)
    (hside : (ch.alternative.draw (d.fresh .fork s)).Yields d₁ side d₂)
    (hclose : (closeCond (d.fresh .fork s) yes side).Yields d₂ next d')
    (hafter : Traced (Outside d next.toList d') d' [] D) (hedges : D.graph.edges = D.strokes)
    (hfirst : ∀ s', e.label = .ok s' → processed e.body
      (forkStart (d₁.grown (d.fresh .fork s) .virtual "False" .condFalse "False")
        (d₁.fresh .virtual "False") s')) :
    ∃ start v fork' start', Dangling D (d.fresh .fork s) start v fork' start' ∧
      Tried D.graph processed e fork' := by
  rw [Chain.alternative_of_cons hcons] at hside
  simp only [Alternative.draw, yields_bind, yields_branch, yields_pure] at hside
  obtain ⟨_, _, ⟨rfl, rfl⟩, no, _, hno, rfl, rfl⟩ := hside
  obtain ⟨s', hs', hno⟩ := yields_elseIf.1 hno
  have hold := (traced_falseSide hyes).1.not_later hfit.current (n := d₁.fresh .virtual "False") (by simp)
  have hrest := traced_rest (Body.traces _ _ _ _ _ hno).1 hclose hafter
  exact ⟨_, _, _, _, dangling_elseIf hfit rfl rfl hyes hno hclose hafter, tried_fork hs' hold hrest hedges (hfirst s' hs')⟩

end

/-- Drawing comes to a suite, with the flow at a node. -/
def Processed (source : Bytes) (describe : String → Except DrawFault Value) (t : Tree)
    (levels : List Level) (l : List Statement) (n : Node) : Prop :=
  ∃ d, Visited source describe t ⟨levels, .suite l, n, d⟩

/-- What is drawn for a chain. All of it is there exactly if it has no further conditions. Otherwise
the first of these has no way on when it fails, and what stands behind it does not matter. -/
theorem chain_followed_iff {source : Bytes} {describe : String → Except DrawFault Value} {t u : Tree}
    {D d : Draft} {levels : List Level} {ch : Chain} {r : List Statement} {c : Node}
    (hd : draft source describe t = (.ok (), D)) (hch : Chain.ofTree? source u = some ch)
    (h : Visited source describe t ⟨levels, .suite (.ofTree source u :: r), c, d⟩) :
    ∃ s next d', ch.head.label = .ok s ∧ (Statement.draw c (.ofTree source u)).Yields d next d' ∧
      (∀ n, next = some n → Visited source describe t ⟨levels, .suite r, n, d'⟩) ∧
      (ch.Followed D.graph (Processed source describe t levels) (d.fresh .fork s) next ↔
        ch.elseIfs = []) ∧
      ∀ e es, ch.elseIfs = e :: es →
        ch.Cut e D.graph (Processed source describe t levels) (d.fresh .fork s) next ∧
        ∀ u' ch', Chain.ofTree? source u' = some ch' → ch'.head = ch.head →
          ch'.elseIfs.head? = some e → Statement.ofTree source u' = Statement.ofTree source u := by
  have hu := Chain.ofTree_eq hch
  rw [hu] at h ⊢
  obtain ⟨hfit, hdrawn⟩ := h.sound hd
  have hedges := edges_eq_strokes hd
  obtain ⟨next, d', hy, hafter⟩ := hdrawn.statement
  obtain ⟨s, yes, d₁, side, d₂, hs, hyes, hside, hclose⟩ := yields_cond.1 hy
  have hsides := ((Body.traces _ _ _ _ _ hyes).1.anywhere []).trans (Alternative.traces _ _ _ _ _ hside).1
    fun _ _ => .inl trivial
  have hhead : Tried D.graph (Processed source describe t levels) ch.head (d.fresh .fork s) :=
    tried_fork hs hfit.current (traced_rest hsides hclose hafter) hedges
      ⟨_, h.next (.inside (.holds _ _ hs))⟩
  have hsecond : ∀ e es, ch.elseIfs = e :: es → ∃ start v fork' start',
      Dangling D (d.fresh .fork s) start v fork' start' ∧
        Tried D.graph (Processed source describe t levels) e fork' := by
    intro e es hcons
    refine Chain.dangling_of_cons hcons hfit hyes hside hclose hafter hedges fun s' hs' => ?_
    rw [Chain.alternative_of_cons hcons] at h
    exact ⟨_, h.next (.inside (.elseIf _ hs hs' hyes))⟩
  refine ⟨s, next, d', hs, hy, ?_, ⟨?_, ?_⟩, ?_⟩
  · rintro n rfl
    exact h.next (.statement hy)
  · intro hfollowed
    cases hes : ch.elseIfs with
    | nil => rfl
    | cons e es =>
      obtain ⟨_, _, _, _, hdangling, -⟩ := hsecond e es hes
      exact absurd (hes ▸ hfollowed.rest) (hdangling.not_chained hedges)
  · intro hnil
    refine ⟨hhead, Chain.chained_of_nil hnil hside hclose hafter hedges fun l hl => ?_, ?_⟩
    · rw [Chain.alternative_of_last hnil hl] at h
      exact ⟨_, h.next (.inside (.otherwise _ hs hyes))⟩
    · rw [Chain.isSome_iff hy, Chain.not_diverges_iff hnil]
  · intro e es hcons
    obtain ⟨_, _, fork', start', hdangling, htried⟩ := hsecond e es hcons
    refine ⟨⟨hhead, ⟨fork', start', hdangling.failsTo hedges, htried, ?_⟩, ?_⟩, ?_⟩
    · rw [Graph.outgoing, hedges]
      exact hdangling.fork'
    · rw [Chain.isSome_iff hy, Chain.alternative_of_cons hcons, Alternative.goesOn, Body.goesOn]
    · intro u' ch' hch' hsame hfirst
      obtain ⟨es', hes'⟩ := List.head?_eq_some_iff.1 hfirst
      rw [Chain.ofTree_eq hch', hsame, Chain.alternative_of_cons hes', Chain.alternative_of_cons hcons]

/-- A chain of which the last suite goes on, and a statement behind it. -/
def cascadeCode : Bytes :=
  "def f():\n if a:\n  return\n elif b:\n  return\n else:\n  x\n y\n".toUTF8.toList

def cascadeChain : Tree :=
  .node "if_statement" 10 53 none
    [.node "identifier" 13 14 (some "condition") [],
     .node "block" 18 24 (some "consequence") [.node "return_statement" 18 24 none []],
     .node "elif_clause" 26 42 (some "alternative")
      [.node "identifier" 31 32 (some "condition") [],
       .node "block" 36 42 (some "consequence") [.node "return_statement" 36 42 none []]],
     .node "else_clause" 44 53 (some "alternative")
      [.node "block" 52 53 (some "body")
        [.node "expression_statement" 52 53 none [.node "identifier" 52 53 none []]]]]

def cascadeNext : Tree :=
  .node "expression_statement" 55 56 none [.node "identifier" 55 56 none []]

def cascade : Tree :=
  .node "function_definition" 0 56 none
    [.node "identifier" 4 5 (some "name") [],
     .node "block" 10 56 (some "body") [cascadeChain, cascadeNext]]

theorem ofTree?_cascadeChain : Chain.ofTree? cascadeCode cascadeChain = some
    ⟨⟨.ok "if a", [.ret]⟩, [⟨.ok "elif b", [.ret]⟩], some [.plain (.ok "x")]⟩ := by
  simp only [Chain.ofTree?, cascadeChain, Tree.kind, ↓reduceIte, suiteAt?, Tree.children, bodyAt,
    Option.some.injEq, String.reduceEq, statements, isFiller, String.reduceBEq, Bool.or_self,
    Bool.false_eq_true, Statement.ofTree, Tree.field, decide_false, not_false_eq_true,
    List.filter_cons_of_neg, decide_true, List.filter_cons_of_pos, List.filter_nil, clauses?,
    List.isEmpty_nil, and_self, firstOf, imp_self, Option.pure_def, Option.bind_eq_bind,
    Option.bind_some, Chain.mk.injEq, Clause.mk.injEq, and_true, List.cons.injEq,
    Statement.plain.injEq]
  decide +kernel

theorem visited_cascade : ∃ s r c d, Visited cascadeCode (fun _ => .ok (.str "")) cascade
    ⟨[], .suite (.ofTree cascadeCode cascadeChain :: s :: r), c, d⟩ := by
  have hname : (Function.ofTree cascadeCode cascade).name = .ok "f" := by decide +kernel
  have hbody : (Function.ofTree cascadeCode cascade).body =
      .suite (statements cascadeCode [cascadeChain, cascadeNext]) := by
    simp [Function.ofTree, cascade, Tree.children, bodyAt]
  have hchain : isFiller cascadeChain.kind = false := by decide
  have hnext : isFiller cascadeNext.kind = false := by decide
  simp only [statements, hchain, hnext, Bool.false_eq_true, ↓reduceIte] at hbody
  exact ⟨_, _, _, _, "f", .str "", _, hname, rfl, hbody, .refl⟩

/-- The statement behind the chain is lost: the flow ends although the last suite of the chain goes on. -/
theorem cascade_not_followed : ∃ D ch s r c d,
    draft cascadeCode (fun _ => .ok (.str "")) cascade = (.ok (), D) ∧
      Chain.ofTree? cascadeCode cascadeChain = some ch ∧ ¬ ch.Diverges ∧
      Visited cascadeCode (fun _ => .ok (.str "")) cascade
        ⟨[], .suite (.ofTree cascadeCode cascadeChain :: s :: r), c, d⟩ ∧
      ∃ label d', (Statement.draw c (.ofTree cascadeCode cascadeChain)).Yields d none d' ∧
        ¬ ch.Followed D.graph (Processed cascadeCode (fun _ => .ok (.str "")) cascade [])
          (d.fresh .fork label) none := by
  have hok : (draft cascadeCode (fun _ => .ok (.str "")) cascade).1 = .ok () := by decide +kernel
  obtain ⟨s, r, c, d, hvisited⟩ := visited_cascade
  obtain ⟨label, next, d', -, hy, -, hiff, hcut⟩ :=
    chain_followed_iff (Prod.ext hok rfl) ofTree?_cascadeChain hvisited
  have hnone : next = none := by simpa [allGoOn, Statement.goesOn] using (hcut _ _ rfl).1.after
  subst hnone
  refine ⟨_, _, s, r, c, d, Prod.ext hok rfl, ofTree?_cascadeChain, ?_, hvisited, label, d', hy, ?_⟩
  · simp [Chain.Diverges, Chain.suites, allGoOn, Statement.goesOn]
  · intro hfollowed
    cases hiff.1 hfollowed

end Suite

end Workbench.Flow
