import Workbench.Proofs.Flow.Braced.Growth
import Mathlib.Logic.Relation

/-!
# How drawing goes through blocks

Drawing visits the blocks of a function one inside the other, statement by statement, and the choices
arm by arm. A spot is a place that it comes to: what lies ahead, the node where the flow stands, and
the draft at that time. If the whole function is drawn then so is what lies ahead at any spot, and all
that is drawn afterwards leaves alone what came in on the way, except where the flow goes on.
-/

namespace Workbench.Flow

/-! ## What is drawn afterwards -/

/-- The node came in between two drafts, and the flow does not go on from there. -/
def Inside (d : Draft) (r : Option Node) (d' : Draft) (n : Node) : Prop :=
  d'.graph.Has n ∧ ¬ d.graph.Has n ∧ r ≠ some n

/-- Steps after which the same edges lead out of some nodes as before. -/
structure Respects (S : Node → Prop) (d d' : Draft) : Prop where
  numbered : d'.graph.Numbered
  vertices : d.graph.vertices <+: d'.graph.vertices
  known : ∀ n, S n → d.graph.Has n
  outgoing : ∀ n, S n → d'.graph.outgoing n = d.graph.outgoing n

section
variable {S : Node → Prop} {m : Manner} {x c n t u v : Node} {d d₁ d₂ d' : Draft} {r : Option Node}

theorem not_inside_of_has (h : d.graph.Has n) : ¬ Inside d r d' n := fun hn => hn.2.1 h

theorem not_inside_of_new (h : ¬ d'.graph.Has n) : ¬ Inside d r d' n := fun hn => h hn.1

theorem not_inside_finish (h : r = some n) : ¬ Inside d r d' n := fun hn => hn.2.2 h

namespace Respects

theorem start (hd : d'.graph.Numbered) : Respects (Inside d r d') d' d' :=
  ⟨hd, List.prefix_rfl, fun _ hn => hn.1, fun _ _ => rfl⟩

theorem has (h : Respects S d d') (hn : d.graph.Has n) : d'.graph.Has n := h.vertices.subset hn

theorem grows (h : Respects S d d₁) (hd : d'.graph.Numbered) (hg : Grows c d₁ d') (hc : ¬ S c) :
    Respects S d d' where
  numbered := hd
  vertices := h.vertices.trans hg.vertices
  known := h.known
  outgoing := by
    intro n hn
    have hne : n ≠ c := fun e => hc (e ▸ hn)
    exact (hg.outgoing n (h.has (h.known n hn)) hne).trans (h.outgoing n hn)

theorem run (h : Respects S d d₁) (hc : At x d₁ c) (hr : Run m x c d₁ d') (hS : ¬ S c) :
    Respects S d d' :=
  h.grows (hr.grows hc.sound.numbered hc.sound.has_exit).1 (hc.growsOf hr) hS

theorem edge (h : Respects S d d₁) (hu : d₁.graph.Has u) (hv : d₁.graph.Has v) (hS : ¬ S u)
    (kind : EdgeKind) (label : String) : Respects S d (d₁.withEdge u v kind label) :=
  h.grows (Draft.numbered_withEdge h.numbered hu hv) (.withEdge h.numbered hu hv kind label) hS

theorem node (h : Respects S d d₁) (kind : NodeKind) (label : Label) :
    Respects S d (d₁.withNode kind label) :=
  h.grows (c := d₁.fresh kind label) (h.numbered.addNode _ _ _) (.withNode h.numbered kind label)
    fun hS => Draft.fresh_not_has h.numbered (h.has (h.known _ hS))

theorem loops (h : Respects S d d₁) (l : List Loop) : Respects S d (d₁.withLoops l) :=
  ⟨h.numbered, h.vertices, h.known, h.outgoing⟩

theorem join {ends : List Node} (h : Respects S d d₁) (he : ∀ n ∈ ends, d₁.graph.Has n ∧ ¬ S n)
    (ht : d₁.graph.Has t) : Respects S d (d₁.joined ends t) := by
  induction ends generalizing d₁ with
  | nil => exact h
  | cons n ends ih =>
    obtain ⟨hn, hS⟩ := he n List.mem_cons_self
    have hg : Grows n d₁ (d₁.withEdge n t .seq "") := .withEdge h.numbered hn ht _ _
    exact ih (h.edge hn ht hS .seq "") (fun k hk =>
      have hk := he k (List.mem_cons_of_mem n hk)
      ⟨hg.has hk.1, hk.2⟩) (hg.has ht)

end Respects

theorem Drawn.numbered (h : Drawn m x c d r d') (hc : At x d c) : d'.graph.Numbered :=
  (h.run.grows hc.sound.numbered hc.sound.has_exit).1

end

namespace Braced

open Drawing

/-! ## Spots -/

def Branch.list? : Branch → Option (List Statement)
  | .block .missing => none
  | .block (.braces l) => some l
  | .single s => some [s]

inductive Ahead where
  | block (l : List Statement)
  -- the arms of a choice, and where they meet
  | arms (join : Node) (l : List Arm)

structure Spot where
  ahead : Ahead
  current : Node
  draft : Draft

/-- What lies ahead at the spot is drawn, and the flow goes on from some node or not at all. -/
def Spot.Yields (p : Spot) (r : Option Node) (d' : Draft) : Prop :=
  match p.ahead with
  | .block l => (drawAll p.current l).Yields p.draft r d'
  | .arms join l => ∃ any, (drawArms p.current join l).Yields p.draft any d' ∧ r = none

/-- From before a statement to a place inside it. -/
inductive Enters (c : Node) (d : Draft) : Statement → Spot → Prop
  | checked {marks n d₁} (s) : (drawChecks c marks).Yields d n d₁ →
      Enters c d (.checked marks s) ⟨.block [s], n, d₁⟩
  | holds {label s side l} (alternative) : label = .ok s → Branch.list? side = some l → l ≠ [] →
      Enters c d (.cond label side alternative)
        ⟨.block l, (withCond d c s).fresh .virtual "True",
          (withCond d c s).grown (d.fresh .fork s) .virtual "True" .condTrue "True"⟩
  | fails {label consequence yes d₁ side l} {s : String} : label = .ok s →
      (Branch.draw (d.fresh .fork s) .condTrue "True" consequence).Yields (withCond d c s) yes d₁ →
      Branch.list? side = some l → l ≠ [] →
      Enters c d (.cond label consequence (some side))
        ⟨.block l, d₁.fresh .virtual "False",
          d₁.grown (d.fresh .fork s) .virtual "False" .condFalse "False"⟩
  | choice {label s} (l) : label = .ok s →
      Enters c d (.select label (.arms l))
        ⟨.arms (choiceJoin d c s) l, d.fresh .fork s, withChoice d c s⟩
  | forever (l) : Enters c d (.forever (.braces l))
      ⟨.block l, (endlessLoop d c).header, withEndless d c⟩
  | loop {label s} (head l) : label = .ok s → Enters c d (.loop head label (.braces l))
      ⟨.block l, roundStart d c head s, withRound d c head s⟩

/-- From a spot to the next statement or arm, or into the one that comes first. -/
inductive Spot.Next : Spot → Spot → Prop
  | statement {c d s r n d₁} : (Statement.draw c s).Yields d (some n) d₁ →
      Next ⟨.block (s :: r), c, d⟩ ⟨.block r, n, d₁⟩
  | inside {c d s r q} : Enters c d s q → Next ⟨.block (s :: r), c, d⟩ q
  | arm {join fork d pattern p value l r} : pattern = .ok p → Branch.list? value = some l →
      Next ⟨.arms join (.arm pattern value :: r), fork, d⟩
        ⟨.block l, d.fresh .virtual ("Case " ++ p), d.grown fork .virtual ("Case " ++ p) .condTrue p⟩
  | arms {join fork d pattern p value finish d₁ r} : pattern = .ok p →
      (Branch.drawInside (d.fresh .virtual ("Case " ++ p)) value).Yields
        (d.grown fork .virtual ("Case " ++ p) .condTrue p) finish d₁ →
      Next ⟨.arms join (.arm pattern value :: r), fork, d⟩
        ⟨.arms join r, fork, d₁.joined finish.toList join⟩

def Visits : Spot → Spot → Prop := Relation.ReflTransGen Spot.Next

/-! ## Blocks inside statements -/

section
variable {c fork : Node} {d d' : Draft} {r : Option Node} {b : Branch} {l : List Statement}

theorem yields_cons {s : Statement} : (drawAll c (s :: l)).Yields d r d' ↔
    ∃ next d₁, (s.draw c).Yields d next d₁ ∧
      (next = none ∧ r = none ∧ d₁ = d' ∨ ∃ n, next = some n ∧ (drawAll n l).Yields d₁ r d') := by
  simp only [drawAll, yields_bind]
  refine exists_congr fun next => exists_congr fun d₁ => and_congr_right fun _ => ?_
  cases next <;> simp

theorem yields_singleton {s : Statement} : (drawAll c [s]).Yields d r d' ↔ (s.draw c).Yields d r d' := by
  rw [yields_cons]
  constructor
  · rintro ⟨next, d₁, h, ⟨rfl, rfl, rfl⟩ | ⟨n, rfl, hn⟩⟩
    · exact h
    · simp only [drawAll, yields_pure] at hn
      obtain ⟨rfl, rfl⟩ := hn
      exact h
  · intro h
    refine ⟨r, d', h, ?_⟩
    cases r with
    | none => exact .inl ⟨rfl, rfl, rfl⟩
    | some n => exact .inr ⟨n, rfl, by simp only [drawAll, yields_pure, and_self]⟩

theorem yields_drawInside (hb : b.list? = some l) :
    (b.drawInside c).Yields d r d' ↔ (drawAll c l).Yields d r d' := by
  match b, hb with
  | .block (.braces _), rfl => simp only [Branch.drawInside]
  | .single _, rfl => rw [yields_singleton, Branch.drawInside]

theorem yields_side {kind : EdgeKind} {label : String} (hb : b.list? = some l) (hl : l ≠ []) :
    (b.draw fork kind label).Yields d r d' ↔
      (drawAll (d.fresh .virtual label) l).Yields (d.grown fork .virtual label kind label) r d' := by
  cases b with
  | single s =>
    cases hb
    simp only [Branch.draw, yields_singleton, yields_bind, yields_branch]
    constructor
    · rintro ⟨_, _, ⟨rfl, rfl⟩, h⟩
      exact h
    · exact fun h => ⟨_, _, ⟨rfl, rfl⟩, h⟩
  | block block =>
    cases block with
    | missing => cases hb
    | braces statements =>
      cases hb
      cases l with
      | nil => exact absurd rfl hl
      | cons s rest =>
        simp only [Branch.draw, drawAll, yields_bind, yields_branch]
        constructor
        · rintro ⟨_, _, ⟨rfl, rfl⟩, h⟩
          exact h
        · exact fun h => ⟨_, _, ⟨rfl, rfl⟩, h⟩

end

/-! ## What holds at every spot -/

def Spot.Fit (x : Node) (p : Spot) : Prop :=
  match p.ahead with
  | .block _ => At x p.draft p.current
  | .arms join _ => Choosing x p.current join p.draft

def Spot.DrawnIn (p : Spot) (r : Option Node) (d' : Draft) : Prop :=
  ∃ r₁ d₁, p.Yields r₁ d₁ ∧ Respects (Inside p.draft r₁ d₁) d₁ d' ∧
    ∀ n, r = some n → ¬ Inside p.draft r₁ d₁ n

structure Spot.Part (x : Node) (p : Spot) (d : Draft) (r : Option Node) (d' : Draft) : Prop where
  fit : p.Fit x
  has : ∀ n, d.graph.Has n → p.draft.graph.Has n
  drawn : p.DrawnIn r d'

section
variable {x c n fork join : Node} {d d₀ d₁ d₂ d' D : Draft} {r r' next finish yes no : Option Node}
  {p q : Spot} {l : List Statement} {label : Tree.Excerpt} {s : String}

theorem Spot.Yields.drawnIn (h : p.Yields r d') (hd : d'.graph.Numbered) : p.DrawnIn r d' :=
  ⟨r, d', h, .start hd, fun _ hn => not_inside_finish hn⟩

/-- Inner steps and what follows them, and then what follows the outer ones. -/
theorem Spot.Part.outward (h : q.Part x d r d') (hr : Respects (Inside d r d') d' D)
    (hend : ∀ n, r' = some n → ¬ Inside d r d' n) : q.DrawnIn r' D := by
  obtain ⟨r₁, d₁, hq, hin, hfin⟩ := h.drawn
  have inward : ∀ n, Inside q.draft r₁ d₁ n → Inside d r d' n := fun n hn =>
    ⟨hin.has hn.1, fun hold => hn.2.1 (h.has n hold), fun hrn => hfin n hrn hn⟩
  refine ⟨r₁, d₁, hq, ⟨hr.numbered, hin.vertices.trans hr.vertices, fun n hn => hn.1, ?_⟩,
    fun n hrn hn => hend n hrn (inward n hn)⟩
  intro n hn
  exact (hr.outgoing n (inward n hn)).trans (hin.outgoing n hn)

/-- What is drawn on from where the flow stands leaves the inside alone. -/
theorem Spot.DrawnIn.onward (h : p.DrawnIn (some n) d₁) (hn : At x d₁ n)
    (hd : Drawn manner x n d₁ r d') : p.DrawnIn r d' := by
  obtain ⟨r₁, d₀, hp, hin, hfin⟩ := h
  refine ⟨r₁, d₀, hp, hin.run hn hd.run (hfin n rfl), fun k hk hinside => ?_⟩
  rcases (hd.finish k hk).2 with rfl | hnew
  · exact hfin k rfl hinside
  · exact hnew (hin.has hinside.1)

theorem respects_joinSides {S : Node → Prop} (h : Respects S d d₁)
    (hyes : ∀ n, yes = some n → d₁.graph.Has n ∧ ¬ S n)
    (hno : ∀ n, no = some n → d₁.graph.Has n ∧ ¬ S n)
    (hj : (joinSides fork yes no).Yields d₁ r d') :
    Respects S d d' ∧ ∀ n, r = some n → ¬ S n := by
  rw [yields_joinSides] at hj
  split at hj
  next =>
    obtain ⟨rfl, rfl⟩ := hj
    have hkept : ∀ k, d₁.graph.Has k → (d₁.withNode .join "fi").graph.Has k :=
      fun k hk => (Draft.has_withNode h.numbered).2 (.inl hk)
    have hjoin : (d₁.withNode .join "fi").graph.Has (d₁.fresh .join "fi") :=
      Draft.has_fresh_withNode h.numbered
    have hmeet : Respects S d ((d₁.withNode .join "fi").joined yes.toList (d₁.fresh .join "fi")) :=
      (h.node .join "fi").join (fun n hn =>
        have hn := hyes n (Option.mem_toList.1 hn)
        ⟨hkept n hn.1, hn.2⟩) hjoin
    refine ⟨?_, ?_⟩
    · cases no with
      | none => exact hmeet
      | some n =>
        obtain ⟨hn, hS⟩ := hno n rfl
        have hends := fun k hk => hkept k (hyes k (Option.mem_toList.1 hk)).1
        exact hmeet.edge ((Draft.has_joined hends hjoin).2 (hkept n hn))
          ((Draft.has_joined hends hjoin).2 hjoin) hS _ _
    · rintro _ ⟨⟩ hS
      exact Draft.fresh_not_has h.numbered (h.has (h.known _ hS))
  next =>
    obtain ⟨rfl, rfl⟩ := hj
    exact ⟨h, nofun⟩

theorem part_checked {marks : List Tree} {s : Statement} (hc : At x d c)
    (hm : (drawChecks c marks).Yields d n d₁)
    (hy : (Statement.draw c (.checked marks s)).Yields d next d') :
    Spot.Part x ⟨.block [s], n, d₁⟩ d next d' := by
  obtain ⟨n', d₁', h₁, h⟩ := yields_checked.1 hy
  obtain ⟨rfl, rfl⟩ := hm.unique h₁
  have hchecks := drawChecks_drawn marks hc hm
  have hn := (hchecks.finish n rfl).1
  exact ⟨hn, fun _ hk => (hc.growsOf hchecks.run).has hk,
    Spot.Yields.drawnIn (yields_singleton.2 h) ((s.lays x _ _ _ _ hn h).numbered hn)⟩

theorem part_holds {side : Branch} {alternative : Option Branch} (hc : At x d c) (hs : label = .ok s)
    (hside : side.list? = some l) (hl : l ≠ [])
    (hy : (Statement.draw c (.cond label side alternative)).Yields d next d') :
    Spot.Part x ⟨.block l, (withCond d c s).fresh .virtual "True",
      (withCond d c s).grown (d.fresh .fork s) .virtual "True" .condTrue "True"⟩ d next d' := by
  obtain ⟨s', yes, d₁, no, d₂, hs', h₁, h₂, h⟩ := yields_cond.1 hy
  obtain rfl : s = s' := Except.ok.inj (hs.symm.trans hs')
  have hcond := drawn_withCond hc s
  have hf := (hcond.finish _ rfl).1
  have hgrow := drawn_branch (k := .condTrue) hf (by decide) "True" "True"
  have hstart := (hgrow.finish _ rfl).1
  have hyes := side.lays x _ _ (by decide) _ _ _ _ hf h₁
  have hf₁ := hf.run hf hyes.run hyes.loops
  have hno := lays_side (fun b _ => b.lays x) _ _ _ _ hf₁ h₂
  rw [yields_side hside hl] at h₁
  have hold : ¬ Inside ((withCond d c s).grown (d.fresh .fork s) .virtual "True" .condTrue "True") yes d₁
      (d.fresh .fork s) := not_inside_of_has ((hf.growsOf hgrow.run).has hf.footing.has)
  have hrest := (Respects.start (hyes.numbered hf)).run hf₁ hno.run hold
  refine ⟨hstart, fun _ hk => (hf.growsOf hgrow.run).has ((hc.growsOf hcond.run).has hk), yes, d₁, h₁, ?_⟩
  refine respects_joinSides hrest (fun n hn => ?_) (fun n hn => ?_) h
  · exact ⟨((hyes.finish n hn).1.run hf₁ hno.run hno.loops).footing.has, not_inside_finish hn⟩
  · obtain ⟨hn, hsrc⟩ := hno.finish n hn
    refine ⟨hn.footing.has, ?_⟩
    rcases hsrc with rfl | hnew
    · exact hold
    · exact not_inside_of_new hnew

theorem part_fails {consequence side : Branch} (hc : At x d c) (hs : label = .ok s)
    (hyes : (consequence.draw (d.fresh .fork s) .condTrue "True").Yields (withCond d c s) yes d₁)
    (hside : side.list? = some l) (hl : l ≠ [])
    (hy : (Statement.draw c (.cond label consequence (some side))).Yields d next d') :
    Spot.Part x ⟨.block l, d₁.fresh .virtual "False",
      d₁.grown (d.fresh .fork s) .virtual "False" .condFalse "False"⟩ d next d' := by
  obtain ⟨s', yes', d₁', no, d₂, hs', h₁, h₂, h⟩ := yields_cond.1 hy
  obtain rfl : s = s' := Except.ok.inj (hs.symm.trans hs')
  obtain ⟨rfl, rfl⟩ := hyes.unique h₁
  have hcond := drawn_withCond hc s
  have hf := (hcond.finish _ rfl).1
  have hyes := consequence.lays x _ _ (by decide) _ _ _ _ hf h₁
  have hf₁ := hf.run hf hyes.run hyes.loops
  have hgrow := drawn_branch (k := .condFalse) hf₁ (by decide) "False" "False"
  have hno := side.lays x _ _ (by decide) _ _ _ _ hf₁ h₂
  simp only [drawSide, yields_side hside hl] at h₂
  refine ⟨(hgrow.finish _ rfl).1, fun _ hk => (hf₁.growsOf hgrow.run).has
    ((hf.growsOf hyes.run).has ((hc.growsOf hcond.run).has hk)), no, d₂, h₂, ?_⟩
  refine respects_joinSides (.start (hno.numbered hf₁)) (fun n hn => ?_) (fun n hn => ?_) h
  · have hn := (hyes.finish n hn).1
    exact ⟨(hn.run hf₁ hno.run hno.loops).footing.has,
      not_inside_of_has ((hf₁.growsOf hgrow.run).has hn.footing.has)⟩
  · exact ⟨(hno.finish n hn).1.footing.has, not_inside_finish hn⟩

theorem part_choice {l : List Arm} (hc : At x d c) (hs : label = .ok s)
    (hy : (Statement.draw c (.select label (.arms l))).Yields d next d') :
    Spot.Part x ⟨.arms (choiceJoin d c s) l, d.fresh .fork s, withChoice d c s⟩ d next d' := by
  obtain ⟨s', any, hs', harms, rfl⟩ := yields_select.1 hy
  obtain rfl : s = s' := Except.ok.inj (hs.symm.trans hs')
  have hchoice := choosing_withChoice hc s
  have hmove : Run manner x c d (withChoice d c s) := .one (.forkJoin hc.footing trivial)
  obtain ⟨hrun, -⟩ := drawArms_lays x l _ _ _ _ _ hchoice harms
  have hd := (hrun.grows hchoice.atFork.sound.numbered hchoice.atFork.sound.has_exit).1
  refine ⟨hchoice, fun _ hk => (hc.growsOf hmove).has hk, none, d', ⟨any, harms, rfl⟩, .start hd, ?_⟩
  intro n hn
  obtain ⟨-, ⟨⟩⟩ := Option.ite_none_right_eq_some.1 hn
  exact not_inside_of_has hchoice.atJoin.footing.has

theorem part_rounds {loop : Loop} {start : Node} {a : Unit} (ho : Opened x c d loop start d₀)
    (hc : At x d c) (hbody : (drawAll start l).Yields d₀ finish d₁)
    (hy : (repeatFrom finish loop.header).Yields d₁ a d₂) :
    Spot.Part x ⟨.block l, start, d₀⟩ d (some loop.exit) (d₂.withLoops d₂.loops.tail) := by
  have hopen := ho.stands.sound.loops loop (ho.loops ▸ List.mem_cons_self)
  have hdrawn := drawAll_lays x l _ _ _ _ ho.stands hbody
  have hstart : Respects (Inside d₀ finish d₁) d₁ d₁ := .start (hdrawn.numbered ho.stands)
  refine ⟨ho.stands, fun _ hk => (hc.growsOf ho.run).has hk, finish, d₁, hbody, ?_, ?_⟩
  · obtain ⟨-, rfl⟩ | ⟨n, hn, rfl⟩ := yields_repeatFrom hy
    · exact hstart.loops _
    · exact (hstart.edge (hdrawn.finish n hn).1.footing.has
        ((ho.stands.growsOf hdrawn.run).has hopen.has_header) (not_inside_finish hn) _ _).loops _
  · rintro _ ⟨⟩
    exact not_inside_of_has hopen.has_exit

theorem Enters.part {s : Statement} (h : Enters c d s q) (hc : At x d c)
    (hy : (s.draw c).Yields d next d') : q.Part x d next d' := by
  cases h with
  | checked s hm => exact part_checked hc hm hy
  | holds alternative hs hside hl => exact part_holds hc hs hside hl hy
  | fails hs hyes hside hl => exact part_fails hc hs hyes hside hl hy
  | choice l hs => exact part_choice hc hs hy
  | forever l =>
    obtain ⟨finish, d₁, d₂, h₁, h₂, rfl, rfl⟩ := yields_forever.1 hy
    simp only [Block.draw] at h₁
    exact part_rounds (opened_withEndless hc) hc h₁ h₂
  | loop head l hs =>
    obtain ⟨s', finish, d₁, d₂, hs', h₁, h₂, rfl, rfl⟩ := yields_loop.1 hy
    obtain rfl := Except.ok.inj (hs.symm.trans hs')
    simp only [Block.draw] at h₁
    exact part_rounds (opened_withRound hc head _) hc h₁ h₂

theorem part_arm {pattern : Tree.Excerpt} {value : Branch} {rest : List Arm} (hc : Choosing x fork join d)
    (hs : pattern = .ok s) (hl : value.list? = some l)
    (hy : Spot.Yields ⟨.arms join (.arm pattern value :: rest), fork, d⟩ r d') :
    Spot.Part x ⟨.block l, d.fresh .virtual ("Case " ++ s),
      d.grown fork .virtual ("Case " ++ s) .condTrue s⟩ d r d' := by
  obtain ⟨any, hall, rfl⟩ := hy
  obtain ⟨s', finish, d₁, _, hs', h₁, h, -⟩ := yields_arms_cons.1 hall
  obtain rfl : s = s' := Except.ok.inj (hs.symm.trans hs')
  have hgrow := drawn_branch (k := .condTrue) hc.atFork (by decide) s ("Case " ++ s)
  obtain ⟨harm, hrun, hloops⟩ := hc.arm (value.laysInside x) h₁
  have hc₁ := hc.run harm.run harm.loops
  have hc₂ := hc.run hrun hloops
  obtain ⟨hrest, -⟩ := drawArms_lays x rest _ _ _ _ _ hc₂ h
  have hg := hc.atFork.growsOf hgrow.run
  rw [yields_drawInside hl] at h₁
  refine ⟨(hgrow.finish _ rfl).1, fun _ hk => hg.has hk, finish, d₁, h₁, ?_, nofun⟩
  refine Respects.run ((Respects.start (harm.numbered hc.atFork)).join (fun n hn => ?_)
    hc₁.atJoin.footing.has) hc₂.atFork hrest (not_inside_of_has (hg.has hc.atFork.footing.has))
  have hn := Option.mem_toList.1 hn
  exact ⟨(harm.finish n hn).1.footing.has, not_inside_finish hn⟩

theorem part_arms {pattern : Tree.Excerpt} {value : Branch} {rest : List Arm} (hc : Choosing x fork join d)
    (hs : pattern = .ok s)
    (hv : (value.drawInside (d.fresh .virtual ("Case " ++ s))).Yields
      (d.grown fork .virtual ("Case " ++ s) .condTrue s) finish d₁)
    (hy : Spot.Yields ⟨.arms join (.arm pattern value :: rest), fork, d⟩ r d') :
    Spot.Part x ⟨.arms join rest, fork, d₁.joined finish.toList join⟩ d r d' := by
  obtain ⟨any, hall, rfl⟩ := hy
  obtain ⟨s', finish', d₁', _, hs', h₁, h, -⟩ := yields_arms_cons.1 hall
  obtain rfl : s = s' := Except.ok.inj (hs.symm.trans hs')
  obtain ⟨rfl, rfl⟩ := hv.unique h₁
  obtain ⟨-, hrun, hloops⟩ := hc.arm (value.laysInside x) hv
  have hc₂ := hc.run hrun hloops
  obtain ⟨hrest, -⟩ := drawArms_lays x rest _ _ _ _ _ hc₂ h
  have hd := (hrest.grows hc₂.atFork.sound.numbered hc₂.atFork.sound.has_exit).1
  exact ⟨hc₂, fun _ hk => (hc.atFork.growsOf hrun).has hk, Spot.Yields.drawnIn ⟨_, h, rfl⟩ hd⟩

theorem Spot.Next.part (h : p.Next q) (hp : p.Fit x) (hy : p.Yields r d') : q.Part x p.draft r d' := by
  cases h with
  | @statement c d s rest n d₁ hs =>
    obtain ⟨next, d₁', h₁, h⟩ := yields_cons.1 hy
    obtain ⟨rfl, rfl⟩ := hs.unique h₁
    have hfirst := s.lays x _ _ _ _ hp hs
    have hn := (hfirst.finish n rfl).1
    rcases h with ⟨hnone, -⟩ | ⟨m, hm, h⟩
    · cases hnone
    · cases hm
      exact ⟨hn, fun _ hk => (At.growsOf hp hfirst.run).has hk,
        Spot.Yields.drawnIn h ((drawAll_lays x rest _ _ _ _ hn h).numbered hn)⟩
  | @inside c d s rest q hq =>
    obtain ⟨next, d₁, h₁, h⟩ := yields_cons.1 hy
    have hpart := hq.part hp h₁
    refine ⟨hpart.fit, hpart.has, ?_⟩
    rcases h with ⟨rfl, rfl, rfl⟩ | ⟨n, rfl, h⟩
    · exact hpart.drawn
    · have hn := ((s.lays x _ _ _ _ hp h₁).finish n rfl).1
      exact hpart.drawn.onward hn (drawAll_lays x rest _ _ _ _ hn h)
  | arm hs hl => exact part_arm hp hs hl hy
  | arms hs hv => exact part_arms hp hs hv hy

theorem Visits.sound (h : Visits p q) (hp : p.Fit x) (hy : p.Yields r d') (hd : d'.graph.Numbered) :
    q.Fit x ∧ q.DrawnIn r d' := by
  induction h with
  | refl => exact ⟨hp, hy.drawnIn hd⟩
  | tail _ hnext ih =>
    obtain ⟨hfit, r₁, d₁, hq, hout, hend⟩ := ih
    have hpart := hnext.part hfit hq
    exact ⟨hpart.fit, hpart.outward hout hend⟩

/-- The first statement at a spot is drawn, and what follows it leaves its inside alone. -/
theorem Spot.DrawnIn.statement {s : Statement} {rest : List Statement}
    (h : Spot.DrawnIn ⟨.block (s :: rest), c, d⟩ none D) (hc : At x d c) :
    ∃ next d', (s.draw c).Yields d next d' ∧ Respects (Inside d next d') d' D := by
  obtain ⟨r₁, d₁, hall, hout, -⟩ := h
  obtain ⟨next, d', h₁, hrest⟩ := yields_cons.1 hall
  refine ⟨next, d', h₁, ?_⟩
  have hfirst := s.lays x _ _ _ _ hc h₁
  rcases hrest with ⟨rfl, rfl, rfl⟩ | ⟨n, rfl, hrest⟩
  · exact hout
  · have hn := (hfirst.finish n rfl).1
    have hlater := drawAll_lays x rest _ _ _ _ hn hrest
    have hpart : Spot.Part x ⟨.block [s], c, d⟩ d r₁ d₁ :=
      ⟨hc, fun _ h => h, Spot.DrawnIn.onward
        (Spot.Yields.drawnIn (yields_singleton.2 h₁) (hfirst.numbered hc)) hn hlater⟩
    have hwhole : Spot.DrawnIn ⟨.block [s], c, d⟩ none D := hpart.outward hout nofun
    obtain ⟨r₂, d₂, h₂, hD, -⟩ := hwhole
    obtain ⟨rfl, rfl⟩ := h₁.unique (yields_singleton.1 h₂)
    exact hD

end

/-! ## Whole functions -/

def rootSpot (name : String) (v : Value) (l : List Statement) : Spot :=
  ⟨.block l, Frame.entry ⟨"fn ", "Function Exit"⟩ "rust_cfg" name v,
    Frame.opened ⟨"fn ", "Function Exit"⟩ "rust_cfg" name v⟩

/-- Drawing the function of a syntax tree comes to the spot. -/
def Visited (source : Bytes) (describe : String → Except DrawFault Value) (t : Tree) (q : Spot) : Prop :=
  ∃ name v l, (Function.ofTree source t).name = .ok name ∧ describe name = .ok v ∧
    (Function.ofTree source t).body = .braces l ∧ Visits (rootSpot name v l) q

section
variable {source : Bytes} {describe : String → Except DrawFault Value} {t : Tree} {p q : Spot} {D : Draft}

theorem Visited.next (h : Visited source describe t p) (hq : p.Next q) : Visited source describe t q := by
  obtain ⟨name, v, l, hname, hv, hl, hp⟩ := h
  exact ⟨name, v, l, hname, hv, hl, hp.tail hq⟩

theorem Visited.unmarked {s : Statement} {rest : List Statement} {c : Node} {d : Draft}
    (h : Visited source describe t ⟨.block (.checked [] s :: rest), c, d⟩) :
    Visited source describe t ⟨.block [s], c, d⟩ :=
  h.next (.inside (.checked s (by simp only [drawChecks, yields_pure, and_self])))

theorem Visited.sound (h : Visited source describe t q) (hd : draft source describe t = (.ok (), D)) :
    ∃ x, q.Fit x ∧ q.DrawnIn none D := by
  obtain ⟨name, v, l, hname, hv, hl, hvisits⟩ := h
  obtain ⟨name', v', hname', hv', r, d₁, hbody, rfl⟩ := yields_drawFunction.1 hd
  obtain rfl : name = name' := Except.ok.inj (hname.symm.trans hname')
  obtain rfl : v = v' := Except.ok.inj (hv.symm.trans hv')
  rw [hl] at hbody
  simp only [Block.draw] at hbody
  have hat := Frame.at_opened ⟨"fn ", "Function Exit"⟩ "rust_cfg" name v
  have hall := drawAll_lays _ l _ _ _ _ hat hbody
  obtain ⟨hfit, r₁, d₂, hq, hout, hend⟩ :=
    hvisits.sound (p := rootSpot name v l) hat hbody (hall.numbered hat)
  refine ⟨_, hfit, r₁, d₂, hq, hout.join (fun n hn => ?_) ((hat.growsOf hall.run).has
    hat.sound.has_exit), nofun⟩
  -- the end of the function is drawn from where the flow goes on
  rw [Option.mem_toList, Option.filter_eq_some_iff] at hn
  exact ⟨(hall.finish n hn.1).1.footing.has, hend n hn.1⟩

end

end Braced

end Workbench.Flow
