import Workbench.Proofs.Flow.Suite.Layout
import Workbench.Proofs.Flow.Suite.Traces
import Mathlib.Logic.Relation

/-!
# How drawing goes through a function

Drawing visits the suites of a function one inside the other, and each of them statement by statement.
A spot is a place that it comes to: the statements ahead, the loops around them, the node where the
flow stands, and the draft at that time. If the whole function is drawn then what lies ahead at any
spot is drawn too; and all that is drawn afterwards leaves the nodes that came in on the way as they
are, except where the flow goes on.
-/

namespace Workbench.Flow

open Draft (New)

/-! ## What is drawn afterwards -/

def Outside (d : Draft) (ends : List Node) (d' : Draft) (id : String) : Prop :=
  ¬ New d d' id ∨ ∃ n ∈ ends, id = n.id

/-- What is known before some steps can be drawn on from behind them. -/
theorem Traced.resume {d d' : Draft} {known : List Node} {c : Node}
    (h : Traced (· = c.id) d known d') (hc : ¬ d.Later c.id) (ends : List Node) (d₁ : Draft) :
    Traced (Outside d' ends d₁) d₁ (known ++ ends) d₁ := by
  refine Traced.start fun n hn => ?_
  rcases List.mem_append.1 hn with hn | hn
  · exact .inl fun hnew => h.not_later hc hn hnew.1
  · exact .inr ⟨n, hn, rfl⟩

/-- Inner steps and what follows them, and then what follows the outer ones. -/
theorem Traced.outward {d d₁ d₁' d' D : Draft} {ends ends₁ ends' : List Node}
    (hle : d.graph.counter ≤ d₁.graph.counter) (h : Traced (Outside d₁ ends₁ d₁') d₁' ends d')
    (h' : Traced (Outside d ends d') d' ends' D) : Traced (Outside d₁ ends₁ d₁') d₁' ends' D := by
  refine (h.trans h' fun id hid => ?_).mono fun n hn => List.mem_append_right _ hn
  rcases hid with hid | ⟨n, hn, rfl⟩
  · exact .inl (.inl fun hnew => hid ((hnew.left hle).right h.counter))
  · exact h.known n hn

namespace Suite

open Drawing

/-! ## Spots -/

inductive Side where
  | body
  -- the suite that runs when the loop ends by itself
  | otherwise
deriving DecidableEq

/-- A loop around a statement, and on which side of it the statement stands. -/
structure Level where
  loop : Loop
  side : Side

inductive Ahead where
  | suite (l : List Statement)
  | handlers (l : List Body)

structure Spot where
  -- the loops around, the innermost first
  levels : List Level
  ahead : Ahead
  current : Node
  draft : Draft

def Spot.Yields (p : Spot) (ends : List Node) (d' : Draft) : Prop :=
  match p.ahead with
  | .suite l => ∃ r, (drawAll p.current l).Yields p.draft r d' ∧ ends = r.toList
  | .handlers l => (drawHandlers p.current l).Yields p.draft ends d'

inductive Enters (ls : List Level) (c : Node) (d : Draft) : Statement → Spot → Prop
  | scopedSuite (l) : Enters ls c d (.scoped (.suite l))
      ⟨ls, .suite l, d.fresh .call "with ...", d.grown c .call "with ..." .seq ""⟩
  | holds {label s} (l alternative) : label = .ok s →
      Enters ls c d (.cond label (.suite l) alternative)
        ⟨ls, .suite l, forkStart d c s, withFork d c s⟩
  | elseIf {label label' s s' body yes d₁} (l) : label = .ok s → label' = .ok s' →
      (body.draw (forkStart d c s)).Yields (withFork d c s) yes d₁ →
      Enters ls c d (.cond label body (.elseIf label' (.suite l)))
        ⟨ls, .suite l,
          forkStart (d₁.grown (d.fresh .fork s) .virtual "False" .condFalse "False")
            (d₁.fresh .virtual "False") s',
          withFork (d₁.grown (d.fresh .fork s) .virtual "False" .condFalse "False")
            (d₁.fresh .virtual "False") s'⟩
  | otherwise {label s body yes d₁} (l) : label = .ok s →
      (body.draw (forkStart d c s)).Yields (withFork d c s) yes d₁ →
      Enters ls c d (.cond label body (.otherwise (.suite l)))
        ⟨ls, .suite l, d₁.fresh .virtual "False",
          d₁.grown (d.fresh .fork s) .virtual "False" .condFalse "False"⟩
  | loop {label s} (l otherwise) : label = .ok s →
      Enters ls c d (.loop label (.suite l) otherwise)
        ⟨⟨newLoop d c s, .body⟩ :: ls, .suite l, bodyStart d c s, withBody d c s⟩
  | loopElse {label s body finish d₁ d₂} (l) : label = .ok s →
      (body.draw (bodyStart d c s)).Yields (withBody d c s) finish d₁ →
      (repeatFrom finish (newLoop d c s).header).Yields d₁ () d₂ →
      Enters ls c d (.loop label body (some (.suite l)))
        ⟨⟨newLoop d c s, .otherwise⟩ :: ls, .suite l, d₂.fresh .virtual "Else",
          d₂.grown (newLoop d c s).header .virtual "Else" .condFalse "Done"⟩
  | guarded (l handlers final) : Enters ls c d (.guarded (.suite l) handlers final)
      ⟨ls, .suite l, newScope d, withScope d c⟩
  | handlers {body finish d₁} (handlers) :
      (body.draw (newScope d)).Yields (withScope d c) finish d₁ →
      Enters ls c d (.guarded body handlers none) ⟨ls, .handlers handlers, newScope d, d₁⟩
  | handlersFinal {body finish d₁} (handlers suite) :
      (body.draw (newScope d)).Yields (withScope d c) finish d₁ →
      Enters ls c d (.guarded body handlers (some suite))
        ⟨ls, .handlers handlers, newScope d, d₁.withNode .join "finally"⟩
  | final {body handlers finish d₁ ends d₂} (l) :
      (body.draw (newScope d)).Yields (withScope d c) finish d₁ →
      (drawHandlers (newScope d) handlers).Yields (d₁.withNode .join "finally") ends d₂ →
      Enters ls c d (.guarded body handlers (some (.suite l)))
        ⟨ls, .suite l, d₁.fresh .join "finally",
          (d₂.joined finish.toList (d₁.fresh .join "finally")).joined ends (d₁.fresh .join "finally")⟩

inductive Spot.Next : Spot → Spot → Prop
  | statement {ls c d s r n d₁} : (Statement.draw c s).Yields d (some n) d₁ →
      Next ⟨ls, .suite (s :: r), c, d⟩ ⟨ls, .suite r, n, d₁⟩
  | inside {ls c d s r q} : Enters ls c d s q → Next ⟨ls, .suite (s :: r), c, d⟩ q
  | handler {ls c d l r} : Next ⟨ls, .handlers (.suite l :: r), c, d⟩
      ⟨ls, .suite l, d.fresh .block "except", d.grown c .block "except" .err "Ex"⟩
  | missing {ls c d r} : Next ⟨ls, .handlers (.missing :: r), c, d⟩
      ⟨ls, .handlers r, c, d.grown c .block "except" .err "Ex"⟩
  | handlers {ls c d l r finish d₁} :
      (drawAll (d.fresh .block "except") l).Yields (d.grown c .block "except" .err "Ex") finish d₁ →
      Next ⟨ls, .handlers (.suite l :: r), c, d⟩ ⟨ls, .handlers r, c, d₁⟩

def Visits : Spot → Spot → Prop := Relation.ReflTransGen Spot.Next

/-! ## What holds at every spot -/

structure Stands (d : Draft) (l : Loop) : Prop where
  header_old : ¬ d.Later l.header.id
  exit_old : ¬ d.Later l.exit.id
  header : d.graph.node? l.header.id = some l.header
  exit : d.graph.node? l.exit.id = some l.exit
  header_kind : l.header.kind = .fork
  exit_kind : l.exit.kind = .join
  exit_label : l.exit.label = "end loop"

theorem Stands.traced {A : String → Prop} {d d' : Draft} {known : List Node} {l : Loop}
    (h : Stands d l) (ht : Traced A d known d') : Stands d' l :=
  ⟨fun hl => h.header_old (hl.mono ht.counter), fun hl => h.exit_old (hl.mono ht.counter),
    ht.nodes _ h.header_old h.header, ht.nodes _ h.exit_old h.exit, h.header_kind, h.exit_kind,
    h.exit_label⟩

/-- The open loops are those around, and no edge starts at a node that is still to come. -/
structure Fit (levels : List Level) (c : Node) (d : Draft) : Prop where
  loops : d.loops = levels.map Level.loop
  current : ¬ d.Later c.id
  sources : ∀ e ∈ d.strokes, ¬ d.Later e.source
  stands : ∀ l ∈ levels, Stands d l.loop
  apart : levels.Pairwise fun l k =>
    l.loop.header.id ≠ k.loop.header.id ∧ l.loop.exit.id ≠ k.loop.exit.id

section
variable {ls : List Level} {c n : Node} {d d' : Draft} {known : List Node}

theorem Fit.traced (h : Fit ls c d) (ht : Traced (· = c.id) d known d') (hn : n ∈ known)
    (hl : d'.loops = d.loops) : Fit ls n d' :=
  ⟨hl.trans h.loops, ht.not_later h.current hn, ht.sources h.current h.sources,
    fun l hmem => (h.stands l hmem).traced ht, h.apart⟩

/-- A new loop is apart from the loops around: its names come in only now. -/
theorem Fit.openLoop (h : Fit ls c d) (s : String) (side : Side) :
    Fit (⟨newLoop d c s, side⟩ :: ls) (newLoop d c s).header (withLoop d c s) := by
  have ht := traced_withLoop c d s
  have hnew : Stands (withLoop d c s) (newLoop d c s) := by
    refine ⟨ht.not_later h.current (by simp), ht.not_later h.current (by simp), ?_, ?_, rfl, rfl, rfl⟩
    · exact ((Traced.here c _).node .join "end loop").nodes _
        ((traced_grown c d .fork s .seq "").not_later h.current (by simp [newLoop]))
        (d.node?_grown c .fork s .seq "")
    · exact Draft.node?_fresh _ .join "end loop"
  have hlater : d.Later (newLoop d c s).header.id ∧ d.Later (newLoop d c s).exit.id :=
    ⟨d.later_fresh .fork s, (Draft.later_fresh _ .join "end loop").mono
      (traced_grown c d .fork s .seq "").counter⟩
  refine ⟨?_, hnew.header_old, ht.sources h.current h.sources, ?_, List.pairwise_cons.2 ⟨?_, h.apart⟩⟩
  · rw [loops_withLoop, List.map_cons, ← h.loops]
  · intro l hl
    rcases List.mem_cons.1 hl with rfl | hl
    · exact hnew
    · exact (h.stands l hl).traced ht
  · intro l hl
    exact ⟨fun hid => (h.stands l hl).header_old (hid ▸ hlater.1),
      fun hid => (h.stands l hl).exit_old (hid ▸ hlater.2)⟩

end

def Spot.Fit (p : Spot) : Prop := Suite.Fit p.levels p.current p.draft

def Spot.DrawnIn (p : Spot) (ends : List Node) (d' : Draft) : Prop :=
  ∃ ends₁ d₁, p.Yields ends₁ d₁ ∧ Traced (Outside p.draft ends₁ d₁) d₁ ends d'

theorem Spot.Yields.drawnIn {p : Spot} {ends : List Node} {d' : Draft} (h : p.Yields ends d') :
    p.DrawnIn ends d' :=
  ⟨ends, d', h, .start fun n hn => .inr ⟨n, hn, rfl⟩⟩

structure Spot.Part (p : Spot) (d : Draft) (ends : List Node) (d' : Draft) : Prop where
  fit : p.Fit
  counter : d.graph.counter ≤ p.draft.graph.counter
  drawn : p.DrawnIn ends d'

section
variable {ls : List Level} {c n : Node} {d d₀ d₁ d₂ d' : Draft} {known ends : List Node}
  {l : List Statement} {finish next : Option Node} {label label' : Tree.Excerpt} {s s' : String}
  {body suite : Body} {alternative : Alternative} {handlers : List Body}

/-- A suite is part of what is drawn if what is known by then can be drawn on from behind it. -/
theorem Spot.Part.of_suite (hp : Suite.Fit ls c d) (hf : Traced (· = c.id) d known d₀) (hn : n ∈ known)
    (hl : d₀.loops = d.loops) (hy : (drawAll n l).Yields d₀ finish d₁)
    (hrest : ∀ {A}, Traced A d₁ (known ++ finish.toList) d₁ → Traced A d₁ ends d') :
    Spot.Part ⟨ls, .suite l, n, d₀⟩ d ends d' :=
  ⟨hp.traced hf hn hl, hf.counter, finish.toList, d₁, ⟨finish, hy, rfl⟩,
    hrest (hf.resume hp.current finish.toList d₁)⟩

theorem Spot.Part.of_handlers {ends₁ : List Node} (hp : Suite.Fit ls c d)
    (hf : Traced (· = c.id) d known d₀) (hn : n ∈ known) (hl : d₀.loops = d.loops)
    (hy : (drawHandlers n handlers).Yields d₀ ends₁ d₁)
    (hrest : ∀ {A}, Traced A d₁ (known ++ ends₁) d₁ → Traced A d₁ ends d') :
    Spot.Part ⟨ls, .handlers handlers, n, d₀⟩ d ends d' :=
  ⟨hp.traced hf hn hl, hf.counter, ends₁, d₁, hy, hrest (hf.resume hp.current ends₁ d₁)⟩

theorem part_scoped (hp : Fit ls c d) (hy : (Statement.draw c (.scoped (.suite l))).Yields d next d') :
    Spot.Part ⟨ls, .suite l, d.fresh .call "with ...", d.grown c .call "with ..." .seq ""⟩ d
      next.toList d' := by
  obtain ⟨finish, d₁, h₁, h⟩ := yields_scoped.1 hy
  simp only [Body.draw] at h₁
  exact .of_suite hp (traced_grown c d .call "with ..." .seq "") (by simp) rfl h₁ fun hr =>
    (traced_closeScoped hr (by simp +contextual) h).1

theorem part_holds (hp : Fit ls c d) (hs : label = .ok s)
    (hy : (Statement.draw c (.cond label (.suite l) alternative)).Yields d next d') :
    Spot.Part ⟨ls, .suite l, forkStart d c s, withFork d c s⟩ d next.toList d' := by
  obtain ⟨s', yes, d₁, side, d₂, hs', h₁, h₂, h⟩ := yields_cond.1 hy
  obtain rfl : s = s' := Except.ok.inj (hs.symm.trans hs')
  simp only [Body.draw] at h₁
  refine .of_suite hp (traced_withFork c d s) (by simp) (loops_withFork d c s) h₁ fun hr => ?_
  have hall := hr.step (n := d.fresh .fork s) (by simp) (alternative.traces _ _ _ _ h₂).1
  exact (traced_closeCond hall (by simp) (by simp +contextual) (by simp +contextual) h).1

theorem traced_falseSide (hbody : (body.draw (forkStart d c s)).Yields (withFork d c s) finish d₁) :
    Traced (· = c.id) d
      ([c] ++ [d.fresh .fork s] ++ [forkStart d c s] ++ finish.toList ++ [d₁.fresh .virtual "False"])
      (d₁.grown (d.fresh .fork s) .virtual "False" .condFalse "False") ∧
    (d₁.grown (d.fresh .fork s) .virtual "False" .condFalse "False").loops = d.loops := by
  obtain ⟨hb, hloops⟩ := body.traces _ _ _ _ hbody
  exact ⟨((traced_withFork c d s).step (by simp) hb).grow (by simp) .virtual "False" .condFalse "False",
    hloops.trans (loops_withFork d c s)⟩

theorem part_elseIf (hp : Fit ls c d) (hs : label = .ok s) (hs' : label' = .ok s')
    (hbody : (body.draw (forkStart d c s)).Yields (withFork d c s) finish d₁)
    (hy : (Statement.draw c (.cond label body (.elseIf label' (.suite l)))).Yields d next d') :
    Spot.Part ⟨ls, .suite l,
      forkStart (d₁.grown (d.fresh .fork s) .virtual "False" .condFalse "False")
        (d₁.fresh .virtual "False") s',
      withFork (d₁.grown (d.fresh .fork s) .virtual "False" .condFalse "False")
        (d₁.fresh .virtual "False") s'⟩ d next.toList d' := by
  obtain ⟨t, yes, d₂, side, d₃, ht, h₁, h₂, h⟩ := yields_cond.1 hy
  obtain rfl : s = t := Except.ok.inj (hs.symm.trans ht)
  obtain ⟨rfl, rfl⟩ := hbody.unique h₁
  simp only [Alternative.draw, yields_bind, yields_branch, yields_pure] at h₂
  obtain ⟨_, _, ⟨rfl, rfl⟩, finish', d₂, h₂, rfl, rfl⟩ := h₂
  obtain ⟨t', ht', h₂⟩ := yields_elseIf.1 h₂
  obtain rfl : s' = t' := Except.ok.inj (hs'.symm.trans ht')
  simp only [Body.draw] at h₂
  obtain ⟨hside, hloops⟩ := traced_falseSide hbody
  -- the names of what came in with the side are of no interest any more
  generalize d₁.grown (d.fresh .fork s) .virtual "False" .condFalse "False" = d₃ at hside hloops h₂ ⊢
  generalize d₁.fresh .virtual "False" = no at hside h₂ ⊢
  refine .of_suite hp (hside.step (by simp) (traced_withFork no d₃ s')) (by simp)
    ((loops_withFork d₃ no s').trans hloops) h₂ fun hr => ?_
  exact (traced_closeCond hr (by simp) (by simp +contextual) (by simp +contextual [FalseSide.ends]) h).1

theorem part_otherwise (hp : Fit ls c d) (hs : label = .ok s)
    (hbody : (body.draw (forkStart d c s)).Yields (withFork d c s) finish d₁)
    (hy : (Statement.draw c (.cond label body (.otherwise (.suite l)))).Yields d next d') :
    Spot.Part ⟨ls, .suite l, d₁.fresh .virtual "False",
      d₁.grown (d.fresh .fork s) .virtual "False" .condFalse "False"⟩ d next.toList d' := by
  obtain ⟨t, yes, d₂, side, d₃, ht, h₁, h₂, h⟩ := yields_cond.1 hy
  obtain rfl : s = t := Except.ok.inj (hs.symm.trans ht)
  obtain ⟨rfl, rfl⟩ := hbody.unique h₁
  simp only [Alternative.draw, yields_bind, yields_branch, yields_pure] at h₂
  obtain ⟨_, _, ⟨rfl, rfl⟩, no, d₂, h₂, rfl, rfl⟩ := h₂
  simp only [Body.draw] at h₂
  obtain ⟨hside, hloops⟩ := traced_falseSide hbody
  refine .of_suite hp hside (by simp) hloops h₂ fun hr => ?_
  exact (traced_closeCond hr (by simp) (by simp +contextual) (by simp +contextual [FalseSide.ends]) h).1

theorem part_loop {done : Node → Node → Drawing Unit} (hp : Fit ls c d) (hs : label = .ok s)
    (hdone : TracesDone done)
    (hy : (drawLoop c label (fun n => Body.draw n (.suite l)) done).Yields d next d') :
    Spot.Part ⟨⟨newLoop d c s, .body⟩ :: ls, .suite l, bodyStart d c s, withBody d c s⟩ d next.toList
      d' := by
  obtain ⟨t, finish, d₁, d₂, d₃, ht, h₁, h₂, h₃, rfl, rfl⟩ := yields_drawLoop.1 hy
  obtain rfl : s = t := Except.ok.inj (hs.symm.trans ht)
  simp only [Body.draw] at h₁
  have hf := traced_withBody c d s
  have hfit := (hp.openLoop s .body).traced (traced_grown (newLoop d c s).header (withLoop d c s)
    .virtual "Body" .condTrue "True") (n := bodyStart d c s) (by simp [bodyStart]) rfl
  have hround := (traced_repeatFrom (hf.resume hp.current finish.toList d₁) (by simp +contextual) h₂).1
  have hall := hround.step (n := (newLoop d c s).header) (by simp) (hdone _ _ _ _ _ h₃).1
  exact ⟨hfit, hf.counter, finish.toList, d₁, ⟨finish, h₁, rfl⟩, (hall.loops _).mono (by simp)⟩

theorem part_loopElse (hp : Fit ls c d) (hs : label = .ok s)
    (hbody : (body.draw (bodyStart d c s)).Yields (withBody d c s) finish d₁)
    (hrepeat : (repeatFrom finish (newLoop d c s).header).Yields d₁ () d₂)
    (hy : (drawLoop c label (fun n => Body.draw n body) (drawElse (.suite l))).Yields d next d') :
    Spot.Part ⟨⟨newLoop d c s, .otherwise⟩ :: ls, .suite l, d₂.fresh .virtual "Else",
      d₂.grown (newLoop d c s).header .virtual "Else" .condFalse "Done"⟩ d next.toList d' := by
  obtain ⟨t, finish', d₃, d₄, d₅, ht, h₁, h₂, h₃, rfl, rfl⟩ := yields_drawLoop.1 hy
  obtain rfl : s = t := Except.ok.inj (hs.symm.trans ht)
  obtain ⟨rfl, rfl⟩ := hbody.unique h₁
  obtain ⟨-, rfl⟩ := hrepeat.unique h₂
  obtain ⟨last, d₄, h₄, rfl⟩ := yields_drawElse.1 h₃
  simp only [Body.draw] at h₄
  obtain ⟨hb, hloops⟩ := body.traces _ _ _ _ hbody
  have hf := (traced_repeatFrom ((traced_withBody c d s).step (by simp) hb) (by simp +contextual)
    hrepeat).1.grow (n := (newLoop d c s).header) (by simp) .virtual "Else" .condFalse "Done"
  -- the loop is still open: its levels are told from where it was opened
  obtain ⟨hround, hloops'⟩ := traced_repeatFrom ((traced_grown (newLoop d c s).header (withLoop d c s)
    .virtual "Body" .condTrue "True").step (n := bodyStart d c s) (by simp [bodyStart]) hb)
    (by simp +contextual) hrepeat
  have hfit := (hp.openLoop s .otherwise).traced (hround.grow (n := (newLoop d c s).header) (by simp)
    .virtual "Else" .condFalse "Done") (n := d₂.fresh .virtual "Else") (by simp)
    (hloops'.trans hloops)
  have hr := hf.resume hp.current last.toList d₄
  exact ⟨hfit, hf.counter, last.toList, d₄, ⟨last, h₄, rfl⟩,
    ((hr.join last.toList (fun n hn => List.mem_append_right _ hn) _).loops _).mono (by simp)⟩

theorem traced_withScope (c : Node) (d : Draft) :
    Traced (· = c.id) d ([c] ++ [newScope d]) (withScope d c) := traced_grown ..

theorem traced_final {A : String → Prop} {scope : Node} (h : Traced A d known d₁) (join : Node)
    (finish : Option Node) (hscope : scope ∈ known) (hf : ∀ n ∈ finish.toList, n ∈ known)
    (hy : (drawHandlers scope handlers).Yields d₁ ends d₂) :
    Traced A d (known ++ ends) ((d₂.joined finish.toList join).joined ends join) :=
  ((h.step hscope (drawHandlers_traces handlers _ _ _ _ hy).1).join finish.toList
    (fun n hn => List.mem_append_left _ (hf n hn)) join).join ends
    (fun _ hn => List.mem_append_right _ hn) join

theorem part_guarded {final : Option Body} (hp : Fit ls c d)
    (hy : (Statement.draw c (.guarded (.suite l) handlers final)).Yields d next d') :
    Spot.Part ⟨ls, .suite l, newScope d, withScope d c⟩ d next.toList d' := by
  have hf := traced_withScope c d
  cases final with
  | none =>
    obtain ⟨finish, d₁, ends, d₂, h₁, h₂, rfl, rfl⟩ := yields_guarded.1 hy
    simp only [Body.draw] at h₁
    refine .of_suite hp hf (by simp) rfl h₁ fun hr => ?_
    have hall := (hr.step (n := newScope d) (by simp)
      (drawHandlers_traces handlers _ _ _ _ h₂).1).node .join "end try"
    exact ((hall.join finish.toList (by simp +contextual) _).join ends (by simp +contextual) _).mono
      (by simp)
  | some suite =>
    obtain ⟨finish, d₁, ends, d₂, h₁, h₂, h⟩ := yields_guardedFinal.1 hy
    simp only [Body.draw] at h₁
    refine .of_suite hp hf (by simp) rfl h₁ fun hr => ?_
    have hall := traced_final (hr.node .join "finally") (d₁.fresh .join "finally") finish (by simp)
      (by simp +contextual) h₂
    exact (hall.step (by simp) (suite.traces _ _ _ _ h).1).mono fun n hn => List.mem_append_right _ hn

theorem part_handlers (hp : Fit ls c d)
    (hbody : (body.draw (newScope d)).Yields (withScope d c) finish d₁)
    (hy : (Statement.draw c (.guarded body handlers none)).Yields d next d') :
    Spot.Part ⟨ls, .handlers handlers, newScope d, d₁⟩ d next.toList d' := by
  obtain ⟨finish', d₂, ends, d₃, h₁, h₂, rfl, rfl⟩ := yields_guarded.1 hy
  obtain ⟨rfl, rfl⟩ := hbody.unique h₁
  obtain ⟨hb, hloops⟩ := body.traces _ _ _ _ hbody
  refine .of_handlers hp ((traced_withScope c d).step (by simp) hb) (by simp) hloops h₂ fun hr => ?_
  exact (((hr.node .join "end try").join finish.toList (by simp +contextual) _).join ends
    (by simp +contextual) _).mono (by simp)

theorem part_handlersFinal (hp : Fit ls c d)
    (hbody : (body.draw (newScope d)).Yields (withScope d c) finish d₁)
    (hy : (Statement.draw c (.guarded body handlers (some suite))).Yields d next d') :
    Spot.Part ⟨ls, .handlers handlers, newScope d, d₁.withNode .join "finally"⟩ d next.toList d' := by
  obtain ⟨finish', d₂, ends, d₃, h₁, h₂, h⟩ := yields_guardedFinal.1 hy
  obtain ⟨rfl, rfl⟩ := hbody.unique h₁
  obtain ⟨hb, hloops⟩ := body.traces _ _ _ _ hbody
  have hf := ((traced_withScope c d).step (by simp) hb).node .join "finally"
  refine .of_handlers hp hf (by simp) hloops h₂ fun hr => ?_
  have hall := (hr.join finish.toList (by simp +contextual) (d₁.fresh .join "finally")).join ends
    (by simp +contextual) (d₁.fresh .join "finally")
  exact (hall.step (by simp) (suite.traces _ _ _ _ h).1).mono fun n hn => List.mem_append_right _ hn

theorem part_final (hp : Fit ls c d)
    (hbody : (body.draw (newScope d)).Yields (withScope d c) finish d₁)
    (hhandlers : (drawHandlers (newScope d) handlers).Yields (d₁.withNode .join "finally") ends d₂)
    (hy : (Statement.draw c (.guarded body handlers (some (.suite l)))).Yields d next d') :
    Spot.Part ⟨ls, .suite l, d₁.fresh .join "finally",
      (d₂.joined finish.toList (d₁.fresh .join "finally")).joined ends (d₁.fresh .join "finally")⟩ d
      next.toList d' := by
  obtain ⟨finish', d₃, ends', d₄, h₁, h₂, h⟩ := yields_guardedFinal.1 hy
  obtain ⟨rfl, rfl⟩ := hbody.unique h₁
  obtain ⟨rfl, rfl⟩ := hhandlers.unique h₂
  simp only [Body.draw] at h
  obtain ⟨hb, hloops⟩ := body.traces _ _ _ _ hbody
  obtain ⟨-, hloops'⟩ := drawHandlers_traces handlers _ _ _ _ hhandlers
  have hf := traced_final (((traced_withScope c d).step (by simp) hb).node .join "finally")
    (d₁.fresh .join "finally") finish (by simp) (by simp +contextual) hhandlers
  refine ⟨hp.traced hf (by simp) ?_, hf.counter, Spot.Yields.drawnIn ⟨next, h, rfl⟩⟩
  rw [Draft.joined_loops, Draft.joined_loops, hloops', Draft.loops_withNode, hloops]
  rfl

end

section
variable {ls : List Level} {c : Node} {d d' : Draft} {q : Spot}

theorem Enters.part {s : Statement} {next : Option Node} (h : Enters ls c d s q) (hp : Fit ls c d)
    (hy : (s.draw c).Yields d next d') : q.Part d next.toList d' := by
  cases h with
  | scopedSuite l => exact part_scoped hp hy
  | holds l alternative hs => exact part_holds hp hs hy
  | elseIf l hs hs' hbody => exact part_elseIf hp hs hs' hbody hy
  | otherwise l hs hbody => exact part_otherwise hp hs hbody hy
  | loop l otherwise hs =>
    -- the two kinds of loop differ in the way out only
    cases otherwise with
    | none =>
      simp only [Statement.draw] at hy
      exact part_loop hp hs tracesDone_edge hy
    | some suite =>
      simp only [Statement.draw] at hy
      exact part_loop hp hs (tracesDone_else suite.traces) hy
  | loopElse l hs hbody hrepeat =>
    simp only [Statement.draw] at hy
    exact part_loopElse hp hs hbody hrepeat hy
  | guarded l handlers final => exact part_guarded hp hy
  | handlers handlers hbody => exact part_handlers hp hbody hy
  | handlersFinal handlers suite hbody => exact part_handlersFinal hp hbody hy
  | final l hbody hhandlers => exact part_final hp hbody hhandlers hy

theorem Spot.Next.part {p : Spot} {ends : List Node} (h : p.Next q) (hp : p.Fit)
    (hy : p.Yields ends d') : q.Part p.draft ends d' := by
  cases h with
  | @statement ls c d s r n d₁ hs =>
    obtain ⟨finish, hall, rfl⟩ := hy
    obtain ⟨next, d₁', h₁, h⟩ := yields_cons.1 hall
    obtain ⟨rfl, rfl⟩ := hs.unique h₁
    obtain ⟨hfirst, hloops⟩ := s.traces _ _ _ _ hs
    rcases h with ⟨hnone, -⟩ | ⟨m, hm, h⟩
    · cases hnone
    · cases hm
      exact ⟨Suite.Fit.traced hp hfirst (by simp) hloops, hfirst.counter,
        Spot.Yields.drawnIn ⟨finish, h, rfl⟩⟩
  | @inside ls c d s r q hq =>
    obtain ⟨finish, hall, rfl⟩ := hy
    obtain ⟨next, d₁, h₁, h⟩ := yields_cons.1 hall
    obtain ⟨hfit, hle, ends₁, d₂, hq₁, hq₂⟩ := hq.part hp h₁
    refine ⟨hfit, hle, ends₁, d₂, hq₁, ?_⟩
    rcases h with ⟨rfl, rfl, rfl⟩ | ⟨n, rfl, h⟩
    · exact hq₂
    · exact (hq₂.step (by simp) (drawAll_traces r _ _ _ _ h).1).mono fun m hm =>
        List.mem_append_right _ hm
  | @handler ls c d l r =>
    obtain ⟨finish, d₁, rest, h₁, h₂, rfl⟩ := yields_handlers_suite.1 hy
    refine .of_suite hp (traced_grown c d .block "except" .err "Ex") (by simp) rfl h₁ fun hr => ?_
    have hall := hr.step (n := c) (by simp) (drawHandlers_traces r _ _ _ _ h₂).1
    refine hall.mono fun n hn => ?_
    rcases List.mem_append.1 hn with hn | hn
    · exact List.mem_append_left _ (List.mem_append_right _ hn)
    · exact List.mem_append_right _ hn
  | @missing ls c d r =>
    simp only [Spot.Yields, drawHandlers, yields_bind, yields_handlerStart, yields_pure] at hy
    obtain ⟨_, _, ⟨rfl, rfl⟩, rest, _, h, rfl, rfl⟩ := hy
    exact .of_handlers hp (traced_grown c d .block "except" .err "Ex") (by simp) rfl h fun hr =>
      hr.mono (by simp +contextual)
  | @handlers ls c d l r finish d₁ hbody =>
    obtain ⟨finish', d₁', rest, h₁, h₂, rfl⟩ := yields_handlers_suite.1 hy
    obtain ⟨rfl, rfl⟩ := hbody.unique h₁
    obtain ⟨hb, hloops⟩ := drawAll_traces l _ _ _ _ hbody
    have hf := (traced_grown c d .block "except" .err "Ex").step (by simp) hb
    refine .of_handlers hp hf (by simp) hloops h₂ fun hr => hr.mono fun n hn => ?_
    rcases List.mem_append.1 hn with hn | hn
    · exact List.mem_append_left _ (List.mem_append_right _ hn)
    · exact List.mem_append_right _ hn

theorem Visits.sound {p : Spot} {ends : List Node} (h : Visits p q) (hp : p.Fit)
    (hy : p.Yields ends d') : q.Fit ∧ q.DrawnIn ends d' := by
  induction h with
  | refl => exact ⟨hp, hy.drawnIn⟩
  | tail _ hnext ih =>
    obtain ⟨hfit, ends₁, d₁, hq, hout⟩ := ih
    obtain ⟨hfit', hle, ends₂, d₂, hr, hin⟩ := hnext.part hfit hq
    exact ⟨hfit', ends₂, d₂, hr, hin.outward hle hout⟩

/-- The first statement at a spot is drawn, and what follows it leaves its inside alone. -/
theorem Spot.DrawnIn.statement {s : Statement} {r : List Statement} {D : Draft}
    (h : Spot.DrawnIn ⟨ls, .suite (s :: r), c, d⟩ [] D) : ∃ next d', (s.draw c).Yields d next d' ∧
      Traced (Outside d next.toList d') d' [] D := by
  obtain ⟨ends, d₁, ⟨finish, hall, rfl⟩, hout⟩ := h
  obtain ⟨next, d', h₁, hrest⟩ := yields_cons.1 hall
  refine ⟨next, d', h₁, ?_⟩
  rcases hrest with ⟨rfl, rfl, rfl⟩ | ⟨n, rfl, hrest⟩
  · exact hout
  · have hgo : Traced (Outside d (some n).toList d') d' finish.toList d₁ :=
      (drawAll_traces r _ _ _ _ hrest).1.weaken fun id hid => .inr ⟨n, by simp, hid⟩
    exact hgo.outward (Nat.le_refl _) hout

end

/-! ## Whole functions -/

def rootSpot (name : String) (v : Value) (l : List Statement) : Spot :=
  ⟨[], .suite l, Frame.entry ⟨"def ", "return/exit"⟩ "python_cfg" name v,
    Frame.opened ⟨"def ", "return/exit"⟩ "python_cfg" name v⟩

theorem fit_rootSpot (name : String) (v : Value) (l : List Statement) : (rootSpot name v l).Fit where
  loops := rfl
  current := by
    rintro ⟨kind, i, hid, hi⟩
    have hcounter : (rootSpot name v l).draft.graph.counter = _ + 1 := Draft.counter_withNode _ _ _
    obtain ⟨-, rfl⟩ := nodeId_inj (k := .block) (i := 1) hid
    omega
  sources := nofun
  stands := fun _ hl => absurd hl List.not_mem_nil
  apart := .nil

def Visited (source : Bytes) (describe : String → Except DrawFault Value) (t : Tree) (q : Spot) : Prop :=
  ∃ name v l, (Function.ofTree source t).name = .ok name ∧ describe name = .ok v ∧
    (Function.ofTree source t).body = .suite l ∧ Visits (rootSpot name v l) q

section
variable {source : Bytes} {describe : String → Except DrawFault Value} {t : Tree} {p q : Spot} {D : Draft}

theorem Visited.next (h : Visited source describe t p) (hq : p.Next q) : Visited source describe t q := by
  obtain ⟨name, v, l, hname, hv, hl, hp⟩ := h
  exact ⟨name, v, l, hname, hv, hl, hp.tail hq⟩

theorem Visited.sound (h : Visited source describe t q) (hd : draft source describe t = (.ok (), D)) :
    q.Fit ∧ q.DrawnIn [] D := by
  obtain ⟨name, v, l, hname, hv, hl, hvisits⟩ := h
  obtain ⟨name', v', hname', hv', r, d₁, hbody, rfl⟩ := yields_drawFunction.1 hd
  obtain rfl : name = name' := Except.ok.inj (hname.symm.trans hname')
  obtain rfl : v = v' := Except.ok.inj (hv.symm.trans hv')
  rw [hl] at hbody
  simp only [Body.draw] at hbody
  obtain ⟨hfit, ends, d₂, hq, hout⟩ := hvisits.sound (fit_rootSpot name v l) ⟨r, hbody, rfl⟩
  refine ⟨hfit, ends, d₂, hq, (hout.join _ (fun n hn => ?_) _).mono nofun⟩
  -- the end of the function is drawn from where the flow goes on
  rw [Option.mem_toList, Option.filter_eq_some_iff] at hn
  exact Option.mem_toList.2 hn.1

/-- No edge of a function is drawn twice, so what was drawn is there at the end. -/
theorem edges_eq_strokes (hd : draft source describe t = (.ok (), D)) : D.graph.edges = D.strokes := by
  obtain ⟨_, _, hlayout⟩ := layout_of_drafted (drafted hd) (by decide) (by decide)
  exact hlayout.strokes.symm

end

end Suite

end Workbench.Flow
