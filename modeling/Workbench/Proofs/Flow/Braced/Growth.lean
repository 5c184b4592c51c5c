import Workbench.Proofs.Flow.Function
import Workbench.Flow.Braced.Drawing

/-!
# How blocks are drawn

Every statement in braces is drawn by a run of moves. A side without statements is an edge from the
fork to the join, so that edges may be drawn twice, and every condition leaves a block behind that
nothing leads to.
-/

namespace Workbench.Flow.Braced

open Drawing

/-- Edges are drawn freely, and a fork may come with a block that nothing leads to. -/
def manner : Manner where
  free _ _ _ := True
  dummies := True

-- the equations are worked out here, once, for all the lemmas below
attribute [local simp] Statement.draw

/-! ## What compound statements yield -/

section
variable {label : Tree.Excerpt} {consequence : Branch} {alternative : Option Branch} {body : Block}
  {c : Node} {d d' : Draft} {r : Option Node}

theorem yields_checked {marks : List Tree} {s : Statement} :
    (Statement.draw c (.checked marks s)).Yields d r d' ↔
      ∃ n d₁, (drawChecks c marks).Yields d n d₁ ∧ (s.draw n).Yields d₁ r d' := by
  simp only [Statement.draw, yields_bind]

def drawSide (fork : Node) : Option Branch → Drawing (Option Node)
  | none => return some fork
  | some side => side.draw fork .condFalse "False"

def withCond (d : Draft) (c : Node) (s : String) : Draft :=
  (d.grown c .fork s .seq "").withNode .block "Then"

theorem yields_cond : (Statement.draw c (.cond label consequence alternative)).Yields d r d' ↔
    ∃ s yes d₁ no d₂, label = .ok s ∧
      (consequence.draw (d.fresh .fork s) .condTrue "True").Yields (withCond d c s) yes d₁ ∧
      (drawSide (d.fresh .fork s) alternative).Yields d₁ no d₂ ∧
      (joinSides (d.fresh .fork s) yes no).Yields d₂ r d' := by
  cases alternative <;>
    simp only [Statement.draw, drawSide, appendCondition, yields_bind, yields_readable, yields_append,
      yields_addNode, yields_pure]
  · constructor
    · rintro ⟨_, _, ⟨s, _, ⟨hs, rfl⟩, _, _, ⟨rfl, rfl⟩, _, _, ⟨rfl, rfl⟩, rfl, rfl⟩, yes, d₁, h₁, h⟩
      exact ⟨s, yes, d₁, _, _, hs, h₁, ⟨rfl, rfl⟩, h⟩
    · rintro ⟨s, yes, d₁, _, _, hs, h₁, ⟨rfl, rfl⟩, h⟩
      exact ⟨_, _, ⟨s, _, ⟨hs, rfl⟩, _, _, ⟨rfl, rfl⟩, _, _, ⟨rfl, rfl⟩, rfl, rfl⟩, yes, d₁, h₁, h⟩
  · constructor
    · rintro ⟨_, _, ⟨s, _, ⟨hs, rfl⟩, _, _, ⟨rfl, rfl⟩, _, _, ⟨rfl, rfl⟩, rfl, rfl⟩, yes, d₁, h₁, no,
        d₂, h₂, h⟩
      exact ⟨s, yes, d₁, no, d₂, hs, h₁, h₂, h⟩
    · rintro ⟨s, yes, d₁, no, d₂, hs, h₁, h₂, h⟩
      exact ⟨_, _, ⟨s, _, ⟨hs, rfl⟩, _, _, ⟨rfl, rfl⟩, _, _, ⟨rfl, rfl⟩, rfl, rfl⟩, yes, d₁, h₁, no,
        d₂, h₂, h⟩

def falseEdge (fork n : Node) : EdgeKind × String :=
  if n.id = fork.id then (.condFalse, "False") else (.seq, "")

def withMeeting (d : Draft) (fork : Node) (yes no : Option Node) : Draft :=
  let met := (d.withNode .join "fi").joined yes.toList (d.fresh .join "fi")
  match no with
  | none => met
  | some n => met.withEdge n (d.fresh .join "fi") (falseEdge fork n).1 (falseEdge fork n).2

theorem yields_falseEdge {fork n join : Node} : Drawing.Yields (do
      if n.id = fork.id then addEdge fork join .condFalse "False" else follow n join
      return some join) d r d' ↔
    r = some join ∧ d' = d.withEdge n join (falseEdge fork n).1 (falseEdge fork n).2 := by
  unfold falseEdge
  split
  next hid =>
    simp only [yields_bind, yields_addEdge, yields_pure, Draft.withEdge, hid]
    constructor
    · rintro ⟨_, _, rfl, rfl, rfl⟩
      exact ⟨rfl, rfl⟩
    · rintro ⟨rfl, rfl⟩
      exact ⟨⟨⟩, _, rfl, rfl, rfl⟩
  next =>
    simp only [yields_bind, yields_follow, yields_pure]
    constructor
    · rintro ⟨_, _, rfl, rfl, rfl⟩
      exact ⟨rfl, rfl⟩
    · rintro ⟨rfl, rfl⟩
      exact ⟨⟨⟩, _, rfl, rfl, rfl⟩

theorem yields_joinSides {fork : Node} {yes no : Option Node} :
    (joinSides fork yes no).Yields d r d' ↔
      if yes.isSome || no.isSome then r = some (d.fresh .join "fi") ∧ d' = withMeeting d fork yes no
      else r = none ∧ d' = d := by
  unfold joinSides
  by_cases hnone : yes.isNone && no.isNone
  · have hgo : (yes.isSome || no.isSome) = false := by cases yes <;> cases no <;> simp_all
    rw [if_pos hnone, hgo, if_neg Bool.false_ne_true, yields_pure, eq_comm (a := d)]
  · have hgo : (yes.isSome || no.isSome) = true := by cases yes <;> cases no <;> simp_all
    rw [if_neg hnone, hgo, if_pos rfl]
    simp only [yields_bind, yields_addNode, yields_followFrom]
    cases no with
    | none =>
      simp only [yields_pure]
      constructor
      · rintro ⟨_, _, ⟨rfl, rfl⟩, _, _, rfl, rfl, rfl⟩
        exact ⟨rfl, rfl⟩
      · rintro ⟨rfl, rfl⟩
        exact ⟨_, _, ⟨rfl, rfl⟩, ⟨⟩, _, rfl, rfl, rfl⟩
    | some n =>
      simp only [yields_falseEdge]
      constructor
      · rintro ⟨_, _, ⟨rfl, rfl⟩, _, _, rfl, rfl, rfl⟩
        exact ⟨rfl, rfl⟩
      · rintro ⟨rfl, rfl⟩
        exact ⟨_, _, ⟨rfl, rfl⟩, ⟨⟩, _, rfl, rfl, rfl⟩

def choiceJoin (d : Draft) (c : Node) (s : String) : Node :=
  (d.grown c .fork s .seq "").fresh .join "end match"

def withChoice (d : Draft) (c : Node) (s : String) : Draft :=
  (d.grown c .fork s .seq "").withNode .join "end match"

theorem yields_select {l : List Arm} :
    (Statement.draw c (.select label (.arms l))).Yields d r d' ↔
      ∃ s any, label = .ok s ∧
        (drawArms (d.fresh .fork s) (choiceJoin d c s) l).Yields (withChoice d c s) any d' ∧
        r = if any then some (choiceJoin d c s) else none := by
  simp only [Statement.draw, yields_bind, yields_readable, yields_append, yields_addNode]
  constructor
  · rintro ⟨s, _, ⟨hs, rfl⟩, _, _, ⟨rfl, rfl⟩, _, _, ⟨rfl, rfl⟩, any, _, h, hr⟩
    cases any <;> obtain ⟨rfl, rfl⟩ := yields_pure.1 hr
    · exact ⟨s, false, hs, h, rfl⟩
    · exact ⟨s, true, hs, h, rfl⟩
  · rintro ⟨s, any, hs, h, rfl⟩
    refine ⟨s, _, ⟨hs, rfl⟩, _, _, ⟨rfl, rfl⟩, _, _, ⟨rfl, rfl⟩, any, d', h, ?_⟩
    cases any <;> exact yields_pure.2 ⟨rfl, rfl⟩

def endlessLoop (d : Draft) (c : Node) : Loop :=
  ⟨d.fresh .join "loop", (d.grown c .join "loop" .seq "").fresh .join "end loop"⟩

def withEndless (d : Draft) (c : Node) : Draft :=
  let opened := (d.grown c .join "loop" .seq "").withNode .join "end loop"
  opened.withLoops (endlessLoop d c :: opened.loops)

theorem loops_withEndless (d : Draft) (c : Node) :
    (withEndless d c).loops = endlessLoop d c :: d.loops := by
  rw [withEndless, Draft.withLoops, Draft.loops_withNode, Draft.loops_grown]

theorem yields_forever : (Statement.draw c (.forever body)).Yields d r d' ↔
    ∃ finish d₁ d₂, (body.draw (endlessLoop d c).header).Yields (withEndless d c) finish d₁ ∧
      (repeatFrom finish (endlessLoop d c).header).Yields d₁ () d₂ ∧
      r = some (endlessLoop d c).exit ∧ d' = d₂.withLoops d₂.loops.tail := by
  simp only [Statement.draw, yields_bind, yields_append, yields_addNode, yields_openLoop,
    yields_closeLoop, yields_pure]
  constructor
  · rintro ⟨_, _, ⟨rfl, rfl⟩, _, _, ⟨rfl, rfl⟩, _, _, rfl, finish, d₁, h₁, _, d₂, h₂, _, _, rfl, rfl,
      rfl⟩
    exact ⟨finish, d₁, d₂, h₁, h₂, rfl, rfl⟩
  · rintro ⟨finish, d₁, d₂, h₁, h₂, rfl, rfl⟩
    exact ⟨_, _, ⟨rfl, rfl⟩, _, _, ⟨rfl, rfl⟩, ⟨⟩, _, rfl, finish, d₁, h₁, ⟨⟩, d₂, h₂, ⟨⟩, _, rfl, rfl,
      rfl⟩

def checkedLoop (d : Draft) (c : Node) (head : LoopHead) (s : String) : Loop :=
  ⟨d.fresh .fork s, (d.grown c .fork s .seq "").fresh .join head.labels.exit⟩

def withExit (d : Draft) (c : Node) (head : LoopHead) (s : String) : Draft :=
  ((d.grown c .fork s .seq "").withNode .join head.labels.exit).withEdge (checkedLoop d c head s).header
    (checkedLoop d c head s).exit .condFalse head.labels.leave

def withChecked (d : Draft) (c : Node) (head : LoopHead) (s : String) : Draft :=
  (withExit d c head s).withLoops (checkedLoop d c head s :: (withExit d c head s).loops)

theorem loops_withChecked (d : Draft) (c : Node) (head : LoopHead) (s : String) :
    (withChecked d c head s).loops = checkedLoop d c head s :: d.loops := by
  rw [withChecked, Draft.withLoops, withExit, Draft.loops_withEdge, Draft.loops_withNode,
    Draft.loops_grown]

def roundStart (d : Draft) (c : Node) (head : LoopHead) (s : String) : Node :=
  (withChecked d c head s).fresh .virtual "Body"

def withRound (d : Draft) (c : Node) (head : LoopHead) (s : String) : Draft :=
  (withChecked d c head s).grown (checkedLoop d c head s).header .virtual "Body" .condTrue
    head.labels.enter

theorem yields_loop {head : LoopHead} :
    (Statement.draw c (.loop head label body)).Yields d r d' ↔
      ∃ s finish d₁ d₂, label = .ok s ∧
        (body.draw (roundStart d c head s)).Yields (withRound d c head s) finish d₁ ∧
        (repeatFrom finish (checkedLoop d c head s).header).Yields d₁ () d₂ ∧
        r = some (checkedLoop d c head s).exit ∧ d' = d₂.withLoops d₂.loops.tail := by
  simp only [Statement.draw, yields_bind, yields_readable, yields_append, yields_addNode,
    yields_addEdge, yields_openLoop, yields_branch, yields_closeLoop, yields_pure]
  constructor
  · rintro ⟨s, _, ⟨hs, rfl⟩, _, _, ⟨rfl, rfl⟩, _, _, ⟨rfl, rfl⟩, _, _, rfl, _, _, rfl, _, _, ⟨rfl, rfl⟩,
      finish, d₁, h₁, _, d₂, h₂, _, _, rfl, rfl, rfl⟩
    exact ⟨s, finish, d₁, d₂, hs, h₁, h₂, rfl, rfl⟩
  · rintro ⟨s, finish, d₁, d₂, hs, h₁, h₂, rfl, rfl⟩
    exact ⟨s, _, ⟨hs, rfl⟩, _, _, ⟨rfl, rfl⟩, _, _, ⟨rfl, rfl⟩, ⟨⟩, _, rfl, ⟨⟩, _, rfl, _, _, ⟨rfl, rfl⟩,
      finish, d₁, h₁, ⟨⟩, d₂, h₂, ⟨⟩, _, rfl, rfl, rfl⟩

end

/-! ## Runs of moves -/

def Lays (x : Node) (step : Node → Drawing (Option Node)) : Prop :=
  ∀ c d r d', At x d c → (step c).Yields d r d' → Drawn manner x c d r d'

section
variable {x c : Node} {d : Draft}

/-! ## Single nodes -/

theorem drawn_append (hc : At x d c) (kind : NodeKind) (label : Label) (hk : kind ≠ .fork)
    (he : kind ≠ .exit) :
    Drawn manner x c d (some (d.fresh kind label)) (d.grown c kind label .seq "") :=
  .grown hc trivial hk he (by decide)

theorem lays_plain (label : Tree.Excerpt) : Lays x fun c => Statement.draw c (.plain label) := by
  intro c d r d' hc h
  simp only [Statement.draw, yields_bind, yields_readable, yields_append, yields_pure] at h
  obtain ⟨l, _, ⟨-, rfl⟩, _, _, ⟨rfl, rfl⟩, rfl, rfl⟩ := h
  exact drawn_append hc .block l (by decide) (by decide)

theorem lays_call (label : Tree.Excerpt) : Lays x fun c => Statement.draw c (.call label) := by
  intro c d r d' hc h
  simp only [Statement.draw, yields_bind, yields_readable, yields_append, yields_pure] at h
  obtain ⟨l, _, ⟨-, rfl⟩, _, _, ⟨rfl, rfl⟩, rfl, rfl⟩ := h
  exact drawn_append hc .call l (by decide) (by decide)

theorem lays_hollow : Lays x fun c => Statement.draw c .hollow := by
  intro c d r d' _ h
  simp only [Statement.draw, not_yields_throw] at h

theorem lays_ret : Lays x fun c => Statement.draw c .ret := by
  intro c d r d' hc h
  simp only [Statement.draw, yields_bind, yields_append, yields_functionExit, yields_follow,
    yields_pure] at h
  obtain ⟨_, _, ⟨rfl, rfl⟩, t, _, ⟨ht, rfl⟩, _, _, rfl, rfl, rfl⟩ := h
  obtain rfl : x = t := Option.some.inj (hc.sound.exit.symm.trans ht)
  exact ⟨.one (.leave hc.footing trivial (.inl ⟨rfl, rfl⟩)), by simp, by simp⟩

theorem lays_panic : Lays x fun c => Statement.draw c .panic := by
  intro c d r d' hc h
  simp only [Statement.draw, yields_bind, yields_append, yields_pure] at h
  obtain ⟨_, _, ⟨rfl, rfl⟩, rfl, rfl⟩ := h
  exact ⟨.one (.grow hc.footing trivial (by decide) (fun _ => rfl) (by decide)), by simp, by simp⟩

theorem lays_breakLoop : Lays x fun c => Statement.draw c .breakLoop := by
  intro c d r d' hc h
  simp only [Statement.draw, yields_breakLoop] at h
  obtain ⟨rfl, rfl⟩ := h
  exact drawn_breakLoop hc fun _ _ => trivial

theorem lays_continueLoop : Lays x fun c => Statement.draw c .continueLoop := by
  intro c d r d' hc h
  simp only [Statement.draw, yields_continueLoop] at h
  obtain ⟨rfl, rfl⟩ := h
  exact drawn_continueLoop hc fun _ _ => trivial

/-! ## Question marks -/

def checkLabel (mark : Tree) : Label := ⟨"Check '?'", some mark⟩

def withCheck (d : Draft) (c x : Node) (mark : Tree) : Draft :=
  (d.grown c .virtual (checkLabel mark) .seq "").withEdge (d.fresh .virtual (checkLabel mark)) x .err
    "Err"

theorem yields_drawCheck {mark : Tree} {n : Node} {d' : Draft} (hx : d.exit = some x) :
    (drawCheck c mark).Yields d n d' ↔
      n = d.fresh .virtual (checkLabel mark) ∧ d' = withCheck d c x mark := by
  simp only [drawCheck, yields_bind, yields_append, yields_functionExit, yields_addEdge, yields_pure]
  constructor
  · rintro ⟨_, _, ⟨rfl, rfl⟩, t, _, ⟨ht, rfl⟩, _, _, rfl, rfl, rfl⟩
    obtain rfl : x = t := Option.some.inj (hx.symm.trans ht)
    exact ⟨rfl, rfl⟩
  · rintro ⟨rfl, rfl⟩
    exact ⟨_, _, ⟨rfl, rfl⟩, x, _, ⟨hx, rfl⟩, ⟨⟩, _, rfl, rfl, rfl⟩

theorem yields_drawChecks_cons {mark : Tree} {marks : List Tree} {n : Node} {d' : Draft}
    (hx : d.exit = some x) :
    (drawChecks c (mark :: marks)).Yields d n d' ↔
      (drawChecks (d.fresh .virtual (checkLabel mark)) marks).Yields (withCheck d c x mark) n d' := by
  simp only [drawChecks, yields_bind, yields_drawCheck hx]
  constructor
  · rintro ⟨_, _, ⟨rfl, rfl⟩, h⟩
    exact h
  · exact fun h => ⟨_, _, ⟨rfl, rfl⟩, h⟩

theorem drawChecks_append (c : Node) (marks more : List Tree) :
    drawChecks c (marks ++ more) = drawChecks c marks >>= fun n => drawChecks n more := by
  induction marks generalizing c with
  | nil => rw [List.nil_append, drawChecks, pure_bind]
  | cons mark marks ih =>
    rw [List.cons_append, drawChecks, drawChecks]
    simp only [ih, bind_assoc]

theorem drawn_withCheck (hc : At x d c) (mark : Tree) :
    Drawn manner x c d (some (d.fresh .virtual (checkLabel mark))) (withCheck d c x mark) :=
  (drawn_append hc .virtual (checkLabel mark) (by decide) (by decide)).linkExit trivial rfl

theorem drawChecks_drawn (marks : List Tree) {n : Node} {d' : Draft} (hc : At x d c)
    (h : (drawChecks c marks).Yields d n d') : Drawn manner x c d (some n) d' := by
  induction marks generalizing c d with
  | nil =>
    simp only [drawChecks, yields_pure] at h
    obtain ⟨rfl, rfl⟩ := h
    exact .refl hc
  | cons mark marks ih =>
    have hcheck := drawn_withCheck hc mark
    exact hcheck.trans hc (ih (hcheck.finish _ rfl).1 ((yields_drawChecks_cons hc.sound.exit).1 h))

theorem lays_checked {marks : List Tree} {s : Statement} (hs : Lays x fun c => Statement.draw c s) :
    Lays x fun c => Statement.draw c (.checked marks s) := by
  intro c d r d' hc h
  obtain ⟨n, d₁, h₁, h⟩ := yields_checked.1 h
  have hd := drawChecks_drawn marks hc h₁
  exact hd.trans hc (hs n d₁ r d' (hd.finish n rfl).1 h)

/-! ## Blocks -/

theorem lays_missing : Lays x fun c => Block.draw c .missing := by
  intro c d r d' _ h
  simp only [Block.draw, not_yields_throw] at h

theorem lays_nil : Lays x fun c => drawAll c [] := by
  intro c d r d' hc h
  simp only [drawAll, yields_pure] at h
  obtain ⟨rfl, rfl⟩ := h
  exact .refl hc

theorem lays_cons {s : Statement} {r : List Statement} (hs : Lays x fun c => Statement.draw c s)
    (hr : Lays x fun c => drawAll c r) : Lays x fun c => drawAll c (s :: r) := by
  intro c d f d' hc h
  simp only [drawAll, yields_bind] at h
  obtain ⟨next, d₁, h₁, h⟩ := h
  have hd := hs c d next d₁ hc h₁
  cases next with
  | none =>
    obtain ⟨rfl, rfl⟩ := yields_pure.1 h
    exact hd
  | some n => exact hd.trans hc (hr n d₁ f d' (hd.finish n rfl).1 h)

/-! ## Sides of a fork -/

def LaysBranch (x : Node) (b : Branch) : Prop :=
  ∀ kind label, kind ≠ EdgeKind.jump → Lays x fun fork => b.draw fork kind label

theorem drawn_branch {k : EdgeKind} (hc : At x d c) (hk : k ≠ .jump)
    (edgeLabel label : String) :
    Drawn manner x c d (some (d.fresh .virtual label)) (d.grown c .virtual label k edgeLabel) :=
  .grown hc trivial (by decide) (by decide) hk

theorem laysBranch_missing : LaysBranch x (.block .missing) := by
  intro kind label _ fork d r d' _ h
  simp only [Branch.draw, not_yields_throw] at h

theorem laysBranch_empty : LaysBranch x (.block (.braces [])) := by
  intro kind label _ fork d r d' hf h
  simp only [Branch.draw, yields_pure] at h
  obtain ⟨rfl, rfl⟩ := h
  exact .refl hf

theorem laysBranch_single {s : Statement} (hs : Lays x fun c => Statement.draw c s) :
    LaysBranch x (.single s) := by
  intro kind label hk fork d r d' hf h
  simp only [Branch.draw, yields_bind, yields_branch] at h
  obtain ⟨_, _, ⟨rfl, rfl⟩, h⟩ := h
  have hb := drawn_branch hf hk label label
  exact hb.trans hf (hs _ _ r d' (hb.finish _ rfl).1 h)

theorem laysBranch_cons {s : Statement} {r : List Statement}
    (hs : Lays x fun c => Statement.draw c s) (hr : Lays x fun c => drawAll c r) :
    LaysBranch x (.block (.braces (s :: r))) := by
  intro kind label hk fork d f d' hf h
  simp only [Branch.draw, yields_bind, yields_branch] at h
  obtain ⟨_, _, ⟨rfl, rfl⟩, next, d₁, h₁, h⟩ := h
  have hb := drawn_branch hf hk label label
  have hd := hb.trans hf (hs _ _ next d₁ (hb.finish _ rfl).1 h₁)
  cases next with
  | none =>
    obtain ⟨rfl, rfl⟩ := yields_pure.1 h
    exact hd
  | some n => exact hd.trans hf (hr n d₁ f d' (hd.finish n rfl).1 h)

theorem drawn_withCond (hc : At x d c) (s : String) :
    Drawn manner x c d (some (d.fresh .fork s)) (withCond d c s) := by
  have hp := hc.grown .fork s .seq "" (by decide)
  refine ⟨.one (.forkThen hc.footing trivial trivial), by simp [withCond], ?_⟩
  rintro _ ⟨⟩
  exact ⟨hp.stands.withNode .block "Then", .inr hp.new⟩

theorem drawn_joinSides {fork : Node} {yes no r : Option Node} {d₁ d₂ d' : Draft}
    (hf : At x d fork) (hyes : Drawn manner x fork d yes d₁) (hno : Drawn manner x fork d₁ no d₂)
    (h : (joinSides fork yes no).Yields d₂ r d') : Drawn manner x fork d r d' := by
  have hf₁ := hf.run hf hyes.run hyes.loops
  have hrun := hyes.run.trans hf.sound.numbered hf.sound.has_exit hno.run (.inl rfl)
  have hloops := hno.loops.trans hyes.loops
  have hsides : ∀ n, yes = some n ∨ no = some n →
      At x d₂ n ∧ (n = fork ∨ ¬ d.graph.Has n) := by
    rintro n (hn | hn)
    · obtain ⟨hn, hsrc⟩ := hyes.finish n hn
      exact ⟨hn.run hf₁ hno.run hno.loops, hsrc⟩
    · obtain ⟨hn, hsrc⟩ := hno.finish n hn
      exact ⟨hn, hsrc.imp_right fun hnew h => hnew ((hf.growsOf hyes.run).has h)⟩
  rw [yields_joinSides] at h
  split at h
  next =>
    obtain ⟨rfl, rfl⟩ := h
    have hends : ∀ n ∈ yes.toList, At x d₂ n ∧
        manner.free (d₂.graph.outgoing n) n (d₂.fresh .join "fi") ∧
          (n = fork ∨ ¬ d.graph.Has n) := by
      intro n hn
      obtain ⟨hat, hsrc⟩ := hsides n (.inl (Option.mem_toList.1 hn))
      exact ⟨hat, trivial, hsrc⟩
    obtain ⟨hj, hjoin⟩ := Drawn.join hf hrun hloops hends (nodup_toList yes)
    cases no with
    | none => exact hjoin
    | some n =>
      obtain ⟨hn, hsrc⟩ := hsides n (.inr rfl)
      have hne : d₂.fresh .join "fi" ≠ n := fun e =>
        Draft.fresh_not_has hn.sound.numbered (e ▸ hn.footing.has)
      have hsink := (hj.outgoing hj.has hj.notMem).trans hj.sink
      refine hjoin.linkTo rfl hsink (hj.at (hn.withNode .join "fi")) hne trivial ?_ hsrc
      unfold falseEdge
      split <;> rfl
  next =>
    obtain ⟨rfl, rfl⟩ := h
    exact ⟨hrun, hloops, nofun⟩

theorem lays_side {alternative : Option Branch} (hn : ∀ b ∈ alternative, LaysBranch x b) :
    Lays x fun fork => drawSide fork alternative := by
  intro fork d r d' hf h
  cases alternative with
  | none =>
    obtain ⟨rfl, rfl⟩ := yields_pure.1 h
    exact .refl hf
  | some b => exact hn b rfl _ _ (by decide) fork d r d' hf h

theorem lays_cond {label : Tree.Excerpt} {consequence : Branch} {alternative : Option Branch}
    (hy : LaysBranch x consequence) (hn : ∀ b ∈ alternative, LaysBranch x b) :
    Lays x fun c => Statement.draw c (.cond label consequence alternative) := by
  intro c d r d' hc h
  obtain ⟨s, yes, d₁, no, d₂, -, h₁, h₂, h⟩ := yields_cond.1 h
  have hcond := drawn_withCond hc s
  have hf := (hcond.finish _ rfl).1
  have hyes := hy _ _ (by decide) _ _ yes d₁ hf h₁
  have hno := lays_side hn _ d₁ no d₂ (hf.run hf hyes.run hyes.loops) h₂
  exact hcond.trans hc (drawn_joinSides hf hyes hno h)

/-! ## Choices -/

structure Choosing (x fork join : Node) (d : Draft) : Prop where
  atFork : At x d fork
  atJoin : At x d join
  kind : join.kind = .join
  sink : d.graph.outgoing join = []
  ne : join ≠ fork

def LaysArms (x : Node) (l : List Arm) : Prop :=
  ∀ fork join d any d', Choosing x fork join d → (drawArms fork join l).Yields d any d' →
    Run manner x fork d d' ∧ d'.loops = d.loops

theorem Choosing.run {fork join : Node} {d' : Draft} (h : Choosing x fork join d)
    (hr : Run manner x fork d d') (hl : d'.loops = d.loops) : Choosing x fork join d' :=
  ⟨h.atFork.run h.atFork hr hl, h.atJoin.run h.atFork hr hl, h.kind,
    ((h.atFork.growsOf hr).outgoing join h.atJoin.footing.has h.ne).trans h.sink, h.ne⟩

theorem yields_arms_cons {pattern : Tree.Excerpt} {value : Branch} {l : List Arm} {fork join : Node}
    {d' : Draft} {any : Bool} : (drawArms fork join (.arm pattern value :: l)).Yields d any d' ↔
      ∃ p finish d₁ rest, pattern = .ok p ∧
        (value.drawInside (d.fresh .virtual ("Case " ++ p))).Yields
          (d.grown fork .virtual ("Case " ++ p) .condTrue p) finish d₁ ∧
        (drawArms fork join l).Yields (d₁.joined finish.toList join) rest d' ∧
        any = (finish.isSome || rest) := by
  simp only [drawArms, yields_bind, yields_readable, yields_branch]
  constructor
  · rintro ⟨p, _, ⟨hp, rfl⟩, _, _, ⟨rfl, rfl⟩, finish, d₁, h₁, h⟩
    cases finish with
    | none => exact ⟨p, none, d₁, any, hp, h₁, h, rfl⟩
    | some n =>
      simp only [yields_bind, yields_follow, yields_pure] at h
      obtain ⟨_, _, rfl, rest, _, h, rfl, rfl⟩ := h
      exact ⟨p, some n, d₁, rest, hp, h₁, h, rfl⟩
  · rintro ⟨p, finish, d₁, rest, hp, h₁, h, rfl⟩
    refine ⟨p, _, ⟨hp, rfl⟩, _, _, ⟨rfl, rfl⟩, finish, d₁, h₁, ?_⟩
    cases finish with
    | none => exact h
    | some n =>
      simp only [yields_bind, yields_follow, yields_pure]
      exact ⟨⟨⟩, _, rfl, rest, d', h, rfl, rfl⟩

theorem laysArms_nil : LaysArms x [] := by
  intro fork join d any d' _ h
  simp only [drawArms, yields_pure] at h
  obtain ⟨-, rfl⟩ := h
  exact ⟨.refl, rfl⟩

theorem Choosing.arm {value : Branch} {fork join : Node} {finish : Option Node} {p : String} {d₁ : Draft}
    (h : Choosing x fork join d) (hv : Lays x fun c => value.drawInside c)
    (hy : (value.drawInside (d.fresh .virtual ("Case " ++ p))).Yields
      (d.grown fork .virtual ("Case " ++ p) .condTrue p) finish d₁) :
    Drawn manner x fork d finish d₁ ∧ Run manner x fork d (d₁.joined finish.toList join) ∧
      (d₁.joined finish.toList join).loops = d.loops := by
  have hgrow := drawn_branch (k := .condTrue) h.atFork (by decide) p ("Case " ++ p)
  have hall := hgrow.trans h.atFork (hv _ _ finish d₁ (hgrow.finish _ rfl).1 hy)
  refine ⟨hall, ?_, (Draft.joined_loops ..).trans hall.loops⟩
  have h₁ := h.run hall.run hall.loops
  cases finish with
  | none => exact hall.run
  | some n =>
    obtain ⟨hn, hsrc⟩ := hall.finish n rfl
    -- the arm ends at its own entry or at a node drawn behind it, never at the join
    have hjn : join ≠ n := by
      rintro rfl
      exact hsrc.elim h.ne fun hnew => hnew h.atJoin.footing.has
    exact .step hall.run (.link hn.footing h₁.atJoin.footing.has hjn (.inl h.kind) h₁.sink trivial rfl) hsrc

theorem laysArms_cons {pattern : Tree.Excerpt} {value : Branch} {l : List Arm}
    (hv : Lays x fun c => value.drawInside c) (hl : LaysArms x l) :
    LaysArms x (.arm pattern value :: l) := by
  intro fork join d any d' hc h
  obtain ⟨p, finish, d₁, rest, -, h₁, h, -⟩ := yields_arms_cons.1 h
  obtain ⟨-, hr₁, hl₁⟩ := hc.arm hv h₁
  obtain ⟨hr, hloops⟩ := hl fork join _ rest d' (hc.run hr₁ hl₁) h
  exact ⟨hr₁.trans hc.atFork.sound.numbered hc.atFork.sound.has_exit hr (.inl rfl), hloops.trans hl₁⟩

theorem lays_selectMissing {label : Tree.Excerpt} :
    Lays x fun c => Statement.draw c (.select label .missing) := by
  intro c d r d' _ h
  simp only [Statement.draw, yields_bind, not_yields_throw, and_false, exists_false] at h

theorem choosing_withChoice (hc : At x d c) (s : String) :
    Choosing x (d.fresh .fork s) (choiceJoin d c s) (withChoice d c s) := by
  have hpf := hc.grown .fork s .seq "" (by decide)
  have hpj := hpf.stands.sound.withJoin "end match"
  exact ⟨hpf.stands.withNode _ _, hpj.stands, rfl, hpj.sink, hpj.ne hpf.stands.footing.has⟩

theorem choiceJoin_new (hc : At x d c) (s : String) : ¬ d.graph.Has (choiceJoin d c s) := by
  have hg : Grows c d (d.grown c .fork s .seq "") := .grown hc.sound.numbered hc.footing.has _ _ _ _
  exact fun h => Draft.fresh_not_has (Draft.numbered_grown hc.sound.numbered hc.footing.has) (hg.has h)

theorem lays_select {label : Tree.Excerpt} {l : List Arm} (hl : LaysArms x l) :
    Lays x fun c => Statement.draw c (.select label (.arms l)) := by
  intro c d r d' hc h
  obtain ⟨s, any, -, harms, rfl⟩ := yields_select.1 h
  have hchoice := choosing_withChoice hc s
  have hmove : Run manner x c d (withChoice d c s) := .one (.forkJoin hc.footing trivial)
  obtain ⟨hrun, hloops⟩ := hl _ _ _ any d' hchoice harms
  refine ⟨hmove.trans hc.sound.numbered hc.sound.has_exit hrun
    (.inr (Draft.fresh_not_has hc.sound.numbered)), ?_, ?_⟩
  · rw [hloops, withChoice, Draft.loops_withNode, Draft.loops_grown]
  · intro n hn
    obtain ⟨-, ⟨⟩⟩ := Option.ite_none_right_eq_some.1 hn
    exact ⟨(hchoice.run hrun hloops).atJoin, .inr (choiceJoin_new hc s)⟩

/-! ## Loops -/

structure Opened (x c : Node) (d : Draft) (l : Loop) (start : Node) (d₁ : Draft) : Prop where
  run : Run manner x c d d₁
  loops : d₁.loops = l :: d.loops
  exit_new : ¬ d.graph.Has l.exit
  stands : At x d₁ start
  new : ¬ d.graph.Has start

/-- The body of a loop that was opened, the way back to its header, and the end of the loop. -/
theorem Opened.drawn {l : Loop} {start : Node} {finish : Option Node} {d₁ d₂ d₃ : Draft} {a : Unit}
    (h : Opened x c d l start d₁) (hc : At x d c) (hbody : Drawn manner x start d₁ finish d₂)
    (hy : (repeatFrom finish l.header).Yields d₂ a d₃) :
    Drawn manner x c d (some l.exit) (d₃.withLoops d₃.loops.tail) := by
  have hmem : l ∈ d₁.loops := h.loops ▸ List.mem_cons_self
  have hopen := h.stands.sound.loops l hmem
  obtain ⟨hr₃, hl₃⟩ := hbody.repeats hmem (fun _ _ => trivial) hy
  exact .closeLoop hc (h.run.trans hc.sound.numbered hc.sound.has_exit hr₃ (.inr h.new))
    (hl₃.trans h.loops) ((h.stands.growsOf hr₃).has hopen.has_exit) hopen.exit_kind h.exit_new

theorem opened_withEndless (hc : At x d c) :
    Opened x c d (endlessLoop d c) (endlessLoop d c).header (withEndless d c) := by
  have hph := hc.grown .join "loop" .seq "" (by decide)
  have hlink : (d.grown c .join "loop" .seq "").graph.Linked c.id (endlessLoop d c).header.id :=
    (Draft.linked_grown hc.sound.numbered).2 (.inr ⟨rfl, rfl⟩)
  have hr := (drawn_append hc .join "loop" (by decide) (by decide)).run
  refine ⟨.step (.step hr (.join "end loop") (.inl rfl)) (.loops _) (.inl rfl), loops_withEndless d c, ?_,
    (hph.stands.newLoop (.inr rfl) ⟨c.id, hlink⟩ "end loop").1, hph.new⟩
  exact fun h => Draft.fresh_not_has hph.stands.sound.numbered ((hc.growsOf hr).has h)

theorem lays_forever {body : Block} (hb : Lays x fun c => body.draw c) :
    Lays x fun c => Statement.draw c (.forever body) := by
  intro c d r d' hc h
  obtain ⟨finish, d₁, d₂, h₁, h₂, rfl, rfl⟩ := yields_forever.1 h
  have hopened := opened_withEndless hc
  exact hopened.drawn hc (hb _ _ finish d₁ hopened.stands h₁) h₂

theorem opened_withRound (hc : At x d c) (head : LoopHead) (s : String) :
    Opened x c d (checkedLoop d c head s) (roundStart d c head s) (withRound d c head s) := by
  have hpc := hc.grown .fork s .seq "" (by decide)
  have hpe := hpc.stands.sound.withJoin head.labels.exit
  have hne : (checkedLoop d c head s).exit ≠ (checkedLoop d c head s).header :=
    hpe.ne hpc.stands.footing.has
  have hlink : (d.grown c .fork s .seq "").graph.Linked c.id (checkedLoop d c head s).header.id :=
    (Draft.linked_grown hc.sound.numbered).2 (.inr ⟨rfl, rfl⟩)
  have hcheck := hpc.stands.withNode .join head.labels.exit
  have hopen := (hpc.stands.newLoop (.inl rfl) ⟨c.id, hlink⟩ head.labels.exit).2
  -- the way out is drawn before the loop is open
  have hout : Move manner x (checkedLoop d c head s).header _ (withExit d c head s) :=
    .link hcheck.footing hopen.has_exit hne (.inl hopen.exit_kind) hopen.exit_sink trivial rfl
  have hcheck₃ : At x (withExit d c head s) (checkedLoop d c head s).header :=
    hcheck.run hcheck (.one hout) (by simp [withExit])
  have hopen₃ := hopen.grows (hcheck.growsOf (.one hout)) hne.symm
  have hcheck₄ : At x (withChecked d c head s) (checkedLoop d c head s).header :=
    hcheck₃.openLoop hopen₃ hne.symm
  have hgrow := drawn_branch (k := .condTrue) hcheck₄ (by decide) head.labels.enter "Body"
  have hr₄ : Run manner x c d (withChecked d c head s) :=
    .step (.step (.one (.forkJoin hc.footing trivial)) hout (.inr hpc.new)) (.loops _) (.inl rfl)
  have hg := hc.growsOf hr₄
  refine ⟨hr₄.trans hc.sound.numbered hc.sound.has_exit hgrow.run (.inr hpc.new), ?_, ?_,
    (hgrow.finish _ rfl).1, ?_⟩
  · rw [withRound, Draft.loops_grown, loops_withChecked]
  · have hg₁ : Grows c d (d.grown c .fork s .seq "") := .grown hc.sound.numbered hc.footing.has _ _ _ _
    exact fun h => hpe.new (hg₁.has h)
  · exact fun h => Draft.fresh_not_has hcheck₄.sound.numbered (hg.has h)

theorem lays_loop {head : LoopHead} {label : Tree.Excerpt} {body : Block}
    (hb : Lays x fun c => body.draw c) :
    Lays x fun c => Statement.draw c (.loop head label body) := by
  intro c d r d' hc h
  obtain ⟨s, finish, d₁, d₂, -, h₁, h₂, rfl, rfl⟩ := yields_loop.1 h
  have hopened := opened_withRound hc head s
  exact hopened.drawn hc (hb _ _ finish d₁ hopened.stands h₁) h₂

end

/-! ## All statements -/

mutual

theorem Statement.lays (x : Node) : ∀ s : Statement, Lays x fun c => s.draw c
  | .checked _ inner => lays_checked (inner.lays x)
  | .plain label => lays_plain label
  | .call label => lays_call label
  | .hollow => lays_hollow
  | .ret => lays_ret
  | .panic => lays_panic
  | .cond _ consequence none => lays_cond (consequence.lays x) nofun
  | .cond _ consequence (some side) => lays_cond (consequence.lays x) fun _ h => by
    cases h
    exact side.lays x
  | .select _ .missing => lays_selectMissing
  | .select _ (.arms l) => lays_select (drawArms_lays x l)
  | .forever body => lays_forever (body.lays x)
  | .loop _ _ body => lays_loop (body.lays x)
  | .breakLoop => lays_breakLoop
  | .continueLoop => lays_continueLoop

theorem Block.lays (x : Node) : ∀ b : Block, Lays x fun c => b.draw c
  | .missing => lays_missing
  | .braces l => by
    simp only [Block.draw]
    exact drawAll_lays x l

theorem drawAll_lays (x : Node) : ∀ l : List Statement, Lays x fun c => drawAll c l
  | [] => lays_nil
  | s :: r => lays_cons (s.lays x) (drawAll_lays x r)

theorem Branch.lays (x : Node) : ∀ b : Branch, LaysBranch x b
  | .block .missing => laysBranch_missing
  | .block (.braces []) => laysBranch_empty
  | .block (.braces (s :: r)) => laysBranch_cons (s.lays x) (drawAll_lays x r)
  | .single s => laysBranch_single (s.lays x)

theorem Branch.laysInside (x : Node) : ∀ b : Branch, Lays x fun c => b.drawInside c
  | .block .missing => by
    intro c d r d' _ h
    simp only [Branch.drawInside, not_yields_throw] at h
  | .block (.braces l) => by
    simp only [Branch.drawInside]
    exact drawAll_lays x l
  | .single s => by
    simp only [Branch.drawInside]
    exact s.lays x

theorem drawArms_lays (x : Node) : ∀ l : List Arm, LaysArms x l
  | [] => laysArms_nil
  | .arm _ value :: l => laysArms_cons (value.laysInside x) (drawArms_lays x l)

end

/-! ## Functions -/

theorem run_of_draft {source : Bytes} {describe : String → Except DrawFault Value} {t : Tree} {d : Draft}
    (h : draft source describe t = (.ok (), d)) :
    ∃ s v, (Function.ofTree source t).name = .ok s ∧ describe s = .ok v ∧
      let f : Frame := ⟨"fn ", "Function Exit"⟩
      Run manner (f.finish "rust_cfg" s v) (f.entry "rust_cfg" s v) (f.opened "rust_cfg" s v) d := by
  obtain ⟨s, v, hs, hv, r, d₁, hbody, rfl⟩ := yields_drawFunction.1 h
  have hat := Frame.at_opened ⟨"fn ", "Function Exit"⟩ "rust_cfg" s v
  refine ⟨s, v, hs, hv, run_of_drawn ?_ fun _ _ => trivial⟩
  cases hb : (Function.ofTree source t).body with
  | missing =>
    rw [hb] at hbody
    obtain ⟨rfl, rfl⟩ := yields_pure.1 hbody
    exact ⟨.refl, rfl, nofun⟩
  | braces l =>
    rw [hb] at hbody
    exact Block.lays _ (.braces l) _ _ r d₁ hat hbody

end Workbench.Flow.Braced
