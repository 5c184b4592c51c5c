import Workbench.Proofs.Flow.Function
import Workbench.Flow.Suite.Drawing

/-!
# How suites are drawn

Every statement of a suite is drawn by a run of moves in which no edge is drawn twice and in which
more than one edge leaves a node only if it is a fork or the scope of a guarded suite. The flow goes
on from a node that leads nowhere yet.
-/

namespace Workbench.Flow.Suite

open Drawing

/-- Several edges may leave a fork and the scope of a guarded suite, one any other node; and no two
edges have the same ends. -/
def manner : Manner where
  free out c t :=
    (out = [] ∨ c.kind = .fork ∨ c.kind = .virtual ∧ c.label = "try scope") ∧
      ∀ e ∈ out, e.target ≠ t.id
  dummies := False

/-- Drawn in the manner of suites; the flow goes on from a node that leads nowhere yet. -/
structure Draws (x c : Node) (d : Draft) (r : Option Node) (d' : Draft) : Prop where
  drawn : Drawn manner x c d r d'
  sink : ∀ n, r = some n → d'.graph.outgoing n = []

-- the equations are worked out here, once, for all the lemmas below
attribute [local simp] Statement.draw

/-- Behind a node that leads nowhere yet, the step draws in the manner of suites. -/
def Lays (x : Node) (step : Node → Drawing (Option Node)) : Prop :=
  ∀ c d r d', At x d c → d.graph.outgoing c = [] → (step c).Yields d r d' → Draws x c d r d'

section
variable {x c t : Node} {d : Draft}

theorem Draws.nowhere {d' : Draft} (hrun : Run manner x c d d') (hloops : d'.loops = d.loops) :
    Draws x c d none d' :=
  ⟨⟨hrun, hloops, by simp⟩, by simp⟩

theorem free_nil (c t : Node) : manner.free [] c t := ⟨.inl rfl, by simp⟩

theorem free_of_sink (h : d.graph.outgoing c = []) : manner.free (d.graph.outgoing c) c t := by
  rw [h]
  exact free_nil c t

theorem target_ne_fresh {kind : NodeKind} {label : Label} (hd : d.graph.Numbered) :
    ∀ e ∈ d.graph.outgoing c, e.target ≠ (d.fresh kind label).id := by
  intro e he ht
  exact Draft.not_linked_fresh hd c.id (Graph.linked_iff_mem_outgoing.2 ⟨e, he, ht⟩)

theorem free_fork {kind : NodeKind} {label : Label} (hd : d.graph.Numbered)
    (hk : c.kind = .fork) : manner.free (d.graph.outgoing c) c (d.fresh kind label) :=
  ⟨.inr (.inl hk), target_ne_fresh hd⟩

theorem free_scope {kind : NodeKind} {label : Label} (hd : d.graph.Numbered)
    (hk : c.kind = .virtual) (hl : c.label = "try scope") :
    manner.free (d.graph.outgoing c) c (d.fresh kind label) :=
  ⟨.inr (.inr ⟨hk, hl⟩), target_ne_fresh hd⟩

/-! ## Single nodes -/

theorem draws_append (hc : At x d c) (hs : d.graph.outgoing c = []) (kind : NodeKind)
    (label : String) (hk : kind ≠ .fork) (he : kind ≠ .exit) :
    Draws x c d (some (d.fresh kind label)) (d.grown c kind label .seq "") where
  drawn := .grown hc (free_of_sink hs) hk he (by decide)
  sink := by
    rintro _ ⟨⟩
    exact (hc.grown kind label .seq "" he).sink

theorem lays_plain (label : Tree.Excerpt) : Lays x fun c => Statement.draw c (.plain label) := by
  intro c d r d' hc hs h
  simp only [Statement.draw, yields_bind, yields_readable, yields_append, yields_pure] at h
  obtain ⟨l, _, ⟨-, rfl⟩, _, _, ⟨rfl, rfl⟩, rfl, rfl⟩ := h
  exact draws_append hc hs .block l (by decide) (by decide)

theorem lays_call (label : Tree.Excerpt) : Lays x fun c => Statement.draw c (.call label) := by
  intro c d r d' hc hs h
  simp only [Statement.draw, yields_bind, yields_readable, yields_append, yields_pure] at h
  obtain ⟨l, _, ⟨-, rfl⟩, _, _, ⟨rfl, rfl⟩, rfl, rfl⟩ := h
  exact draws_append hc hs .call l (by decide) (by decide)

theorem lays_hollow : Lays x fun c => Statement.draw c .hollow := by
  intro c d r d' _ _ h
  simp only [Statement.draw, not_yields_throw] at h

theorem lays_ret : Lays x fun c => Statement.draw c .ret := by
  intro c d r d' hc hs h
  simp only [Statement.draw, yields_bind, yields_append, yields_get] at h
  obtain ⟨_, _, ⟨rfl, rfl⟩, _, _, ⟨rfl, rfl⟩, h⟩ := h
  rw [show (d.grown c .exit "return" .seq "").exit = some x from hc.sound.exit] at h
  simp only [yields_bind, yields_follow, yields_pure] at h
  obtain ⟨_, _, rfl, rfl, rfl⟩ := h
  refine .nowhere (.one ?_) (by simp)
  exact .leave hc.footing (free_of_sink hs) (.inl ⟨rfl, rfl⟩)

theorem lays_raise : Lays x fun c => Statement.draw c .raise := by
  intro c d r d' hc hs h
  simp only [Statement.draw, yields_bind, yields_append, yields_get] at h
  obtain ⟨_, _, ⟨rfl, rfl⟩, _, _, ⟨rfl, rfl⟩, h⟩ := h
  rw [show (d.grown c .exit "raise" .seq "").exit = some x from hc.sound.exit] at h
  simp only [yields_bind, yields_addEdge, yields_pure] at h
  obtain ⟨_, _, rfl, rfl, rfl⟩ := h
  refine .nowhere (.one ?_) (by simp)
  exact .leave hc.footing (free_of_sink hs) (.inr ⟨rfl, rfl⟩)

theorem lays_breakLoop : Lays x fun c => Statement.draw c .breakLoop := by
  intro c d r d' hc hs h
  simp only [Statement.draw, yields_breakLoop] at h
  obtain ⟨rfl, rfl⟩ := h
  exact ⟨drawn_breakLoop hc fun _ _ => free_of_sink hs, nofun⟩

theorem lays_continueLoop : Lays x fun c => Statement.draw c .continueLoop := by
  intro c d r d' hc hs h
  simp only [Statement.draw, yields_continueLoop] at h
  obtain ⟨rfl, rfl⟩ := h
  exact ⟨drawn_continueLoop hc fun _ _ => free_of_sink hs, nofun⟩

/-! ## Suites -/

theorem lays_missing : Lays x fun c => Body.draw c .missing := by
  intro c d r d' _ _ h
  simp only [Body.draw, not_yields_throw] at h

theorem lays_nil : Lays x fun c => drawAll c [] := by
  intro c d r d' hc hs h
  simp only [drawAll, yields_pure] at h
  obtain ⟨rfl, rfl⟩ := h
  exact ⟨.refl hc, fun n hn => Option.some.inj hn ▸ hs⟩

theorem lays_cons {s : Statement} {r : List Statement} (hs : Lays x fun c => Statement.draw c s)
    (hr : Lays x fun c => drawAll c r) : Lays x fun c => drawAll c (s :: r) := by
  intro c d f d' hc hsink h
  simp only [drawAll, yields_bind] at h
  obtain ⟨next, d₁, h₁, h⟩ := h
  have hd := hs c d next d₁ hc hsink h₁
  cases next with
  | none =>
    obtain ⟨rfl, rfl⟩ := yields_pure.1 h
    exact hd
  | some n =>
    have hd' := hr n d₁ f d' (hd.drawn.finish n rfl).1 (hd.sink n rfl) h
    exact ⟨hd.drawn.trans hc hd'.drawn, hd'.sink⟩

theorem lays_scoped {body : Body} (hb : Lays x fun c => Body.draw c body) :
    Lays x fun c => Statement.draw c (.scoped body) := by
  intro c d r d' hc hs h
  simp only [Statement.draw, yields_bind, yields_append] at h
  obtain ⟨enter, d₁, ⟨rfl, rfl⟩, next, d₂, h₂, h⟩ := h
  have he := draws_append hc hs .call "with ..." (by decide) (by decide)
  have hd := hb _ _ next d₂ (he.drawn.finish _ rfl).1 (he.sink _ rfl) h₂
  cases next with
  | none =>
    obtain ⟨rfl, rfl⟩ := yields_pure.1 h
    exact ⟨he.drawn.trans hc hd.drawn, by simp⟩
  | some n =>
    simp only [yields_bind, yields_append, yields_pure] at h
    obtain ⟨_, _, ⟨rfl, rfl⟩, rfl, rfl⟩ := h
    have hn := (hd.drawn.finish n rfl).1
    have hl := draws_append hn (hd.sink n rfl) .virtual "__exit__" (by decide) (by decide)
    exact ⟨he.drawn.trans hc (hd.drawn.trans (he.drawn.finish _ rfl).1 hl.drawn), hl.sink⟩

/-! ## Conditions -/

/-- A run from `c` that leaves behind new places from which the flow goes on. -/
structure Opens (x c : Node) (d : Draft) (ends : List Node) (d' : Draft) : Prop where
  run : Run manner x c d d'
  loops : d'.loops = d.loops
  stands : ∀ n ∈ ends, At x d' n
  sink : ∀ n ∈ ends, d'.graph.outgoing n = []
  new : ∀ n ∈ ends, ¬ d.graph.Has n
  nodup : ends.Nodup

def FalseSide.ends : FalseSide → List Node
  | .bare => []
  | .drawn finish => finish.toList

def LaysSide (x : Node) (a : Alternative) : Prop :=
  ∀ fork d side d', At x d fork → fork.kind = .fork → (a.draw fork).Yields d side d' →
    Opens x fork d side.ends d'

theorem Opens.nowhere {d' : Draft} (hrun : Run manner x c d d') (hloops : d'.loops = d.loops) :
    Opens x c d [] d' :=
  ⟨hrun, hloops, by simp, by simp, by simp, List.nodup_nil⟩

/-- A new node behind `c`, and then what is drawn behind the new node. -/
theorem Opens.behind {n : Node} {d₁ d' : Draft} {r : Option Node} (hc : At x d c)
    (hm : Run manner x c d d₁) (hp : Placed x d n d₁) (h : Draws x n d₁ r d') :
    Opens x c d r.toList d' where
  run := hm.trans hc.sound.numbered hc.sound.has_exit h.drawn.run (.inr hp.new)
  loops := h.drawn.loops.trans hp.loops
  stands := fun k hk => (h.drawn.finish k (by simpa using hk)).1
  sink := fun k hk => h.sink k (by simpa using hk)
  new := by
    intro k hk hin
    rcases (h.drawn.finish k (by simpa using hk)).2 with rfl | hk
    · exact hp.new hin
    · exact hk ((hc.growsOf hm).has hin)
  nodup := nodup_toList r

theorem laysSide_none : LaysSide x .none := by
  intro fork d side d' _ _ h
  simp only [Alternative.draw, yields_pure] at h
  obtain ⟨rfl, rfl⟩ := h
  exact .nowhere .refl rfl

theorem move_branch {kind : EdgeKind} {edgeLabel label : String} (hc : At x d c)
    (hk : c.kind = .fork) (he : kind ≠ .jump) :
    Move manner x c d (d.grown c .virtual label kind edgeLabel) :=
  .grow hc.footing (free_fork hc.sound.numbered hk) (by decide) nofun he

theorem laysSide_other : LaysSide x .other := by
  intro fork d side d' hf hk h
  simp only [Alternative.draw, yields_bind, yields_branch, yields_pure] at h
  obtain ⟨_, _, ⟨rfl, rfl⟩, rfl, rfl⟩ := h
  exact .nowhere (.one (move_branch hf hk (by decide))) rfl

theorem laysSide_otherwise {body : Body} (hb : Lays x fun c => Body.draw c body) :
    LaysSide x (.otherwise body) := by
  intro fork d side d' hf hk h
  simp only [Alternative.draw, yields_bind, yields_branch, yields_pure] at h
  obtain ⟨_, _, ⟨rfl, rfl⟩, no, _, h, rfl, rfl⟩ := h
  have hp := hf.grown .virtual "False" .condFalse "False" (by decide)
  exact .behind hf (.one (move_branch hf hk (by decide))) hp (hb _ _ _ _ hp.stands hp.sink h)

theorem move_forkBranch {label edgeLabel nextLabel : String} {kind : EdgeKind} (hc : At x d c)
    (hs : d.graph.outgoing c = []) (he : kind ≠ .jump) :
    Move manner x c d ((d.grown c .fork label .seq "").grown (d.fresh .fork label) .virtual nextLabel
      kind edgeLabel) :=
  .forkBranch hc.footing (free_of_sink hs) he (free_nil _ _)

theorem Opens.draws {r : Option Node} {d' : Draft} (h : Opens x c d r.toList d') :
    Draws x c d r d' where
  drawn := ⟨h.run, h.loops, fun n hn =>
    ⟨h.stands n (by simpa using hn), .inr (h.new n (by simpa using hn))⟩⟩
  sink := fun n hn => h.sink n (by simpa using hn)

theorem placed_forkBranch (hc : At x d c) (label edgeLabel nextLabel : String) (kind : EdgeKind) :
    Placed x d ((d.grown c .fork label .seq "").fresh .virtual nextLabel)
      ((d.grown c .fork label .seq "").grown (d.fresh .fork label) .virtual nextLabel kind
        edgeLabel) := by
  have hp := hc.grown .fork label .seq "" (by decide)
  have hq := hp.stands.grown .virtual nextLabel kind edgeLabel (by decide)
  refine ⟨hq.stands, hq.sink, fun h => hq.new ?_, hq.loops.trans hp.loops⟩
  exact (Draft.has_grown hc.sound.numbered hc.footing.has).2 (.inl h)

theorem lays_elseIf {label : Tree.Excerpt} {body : Node → Drawing (Option Node)}
    (hb : Lays x body) : Lays x fun c => drawElseIf c label body := by
  intro c d r d' hc hs h
  simp only [drawElseIf, yields_bind, yields_readable, yields_append, yields_branch] at h
  obtain ⟨l, _, ⟨-, rfl⟩, _, _, ⟨rfl, rfl⟩, _, _, ⟨rfl, rfl⟩, h⟩ := h
  have hp := placed_forkBranch hc l "True" "True" .condTrue
  exact (Opens.behind hc (.one (move_forkBranch hc hs (by decide))) hp
    (hb _ _ _ _ hp.stands hp.sink h)).draws

theorem laysSide_elseIf {label : Tree.Excerpt} {body : Body} (hb : Lays x fun c => Body.draw c body) :
    LaysSide x (.elseIf label body) := by
  intro fork d side d' hf hk h
  simp only [Alternative.draw, yields_bind, yields_branch, yields_pure] at h
  obtain ⟨_, _, ⟨rfl, rfl⟩, no, _, h, rfl, rfl⟩ := h
  have hp := hf.grown .virtual "False" .condFalse "False" (by decide)
  exact .behind hf (.one (move_branch hf hk (by decide))) hp
    (lays_elseIf hb _ _ _ _ hp.stands hp.sink h)

/-- Two runs, the second from a node that the first left alone at its end. -/
theorem Opens.append {f : Node} {d₁ d' : Draft} {ends ends' : List Node} (hc : At x d c)
    (h : Opens x c d ends d₁) (hf : At x d₁ f) (hsrc : f = c ∨ ¬ d.graph.Has f) (hne : f ∉ ends)
    (h' : Opens x f d₁ ends' d') : Opens x c d (ends ++ ends') d' where
  run := h.run.trans hc.sound.numbered hc.sound.has_exit h'.run hsrc
  loops := h'.loops.trans h.loops
  stands := by
    intro n hn
    rcases List.mem_append.1 hn with hn | hn
    · exact (h.stands n hn).run hf h'.run h'.loops
    · exact h'.stands n hn
  sink := by
    intro n hn
    rcases List.mem_append.1 hn with hn | hn
    · have hnf : n ≠ f := fun e => hne (e ▸ hn)
      exact ((hf.growsOf h'.run).outgoing n (h.stands n hn).footing.has hnf).trans (h.sink n hn)
    · exact h'.sink n hn
  new := by
    intro n hn hin
    rcases List.mem_append.1 hn with hn | hn
    · exact h.new n hn hin
    · exact h'.new n hn ((hc.growsOf h.run).has hin)
  nodup := by
    refine List.nodup_append.2 ⟨h.nodup, h'.nodup, ?_⟩
    rintro a ha _ hb rfl
    exact h'.new a hb (h.stands a ha).footing.has

theorem Opens.join {d₁ : Draft} {ends : List Node} (hc : At x d c) (h : Opens x c d ends d₁)
    (label : String) :
    Joinable manner x (d₁.withNode .join label) ends (d₁.fresh .join label) ∧
      Draws x c d (some (d₁.fresh .join label))
        ((d₁.withNode .join label).joined ends (d₁.fresh .join label)) := by
  obtain ⟨hj, hd⟩ := Drawn.join (m := manner) hc h.run h.loops
    (fun n hn => ⟨h.stands n hn, free_of_sink (h.sink n hn), .inr (h.new n hn)⟩) h.nodup
  refine ⟨hj, hd, ?_⟩
  rintro _ ⟨⟩
  exact (hj.outgoing hj.has hj.notMem).trans hj.sink

theorem lays_cond {label : Tree.Excerpt} {body : Body} {alternative : Alternative}
    (hb : Lays x fun c => Body.draw c body) (ha : LaysSide x alternative) :
    Lays x fun c => Statement.draw c (.cond label body alternative) := by
  intro c d r d' hc hs h
  simp only [Statement.draw, yields_bind, yields_readable, yields_append, yields_branch] at h
  obtain ⟨l, _, ⟨-, rfl⟩, fork, d₁, ⟨hfork, hd₁⟩, start, d₂, ⟨hstart, hd₂⟩, yes, d₃, hyes, side, d₄,
    hside, h⟩ := h
  have hkind : fork.kind = .fork := by rw [hfork]; rfl
  have hpf : Placed x d fork d₁ := by rw [hfork, hd₁]; exact hc.grown .fork l .seq "" (by decide)
  have hps : Placed x d₁ start d₂ := by rw [hstart, hd₂]; exact hpf.stands.grown _ _ _ _ (by decide)
  have hmove : Run manner x c d d₂ := by
    subst hd₂ hd₁ hfork
    exact .one (move_forkBranch hc hs (by decide))
  have hg₁ : Grows c d d₁ := by rw [hd₁]; exact .grown hc.sound.numbered hc.footing.has _ _ _ _
  have hfork₂ : At x d₂ fork := by rw [hd₂]; exact hpf.stands.keptByGrown hpf.stands _ _ _ _
  have hbody := hb start d₂ yes d₃ hps.stands hps.sink hyes
  have hfork₃ : At x d₃ fork := hfork₂.run hps.stands hbody.drawn.run hbody.drawn.loops
  have hyesne : fork ∉ yes.toList := by
    intro hmem
    rcases (hbody.drawn.finish fork (by simpa using hmem)).2 with rfl | hnew
    · exact hps.new hpf.stands.footing.has
    · exact hnew hfork₂.footing.has
  have hopen : Opens x c d yes.toList d₃ := .behind hc hmove
    ⟨hps.stands, hps.sink, fun h => hps.new (hg₁.has h), hps.loops.trans hpf.loops⟩ hbody
  have hrest := ha fork d₃ side d₄ hfork₃ hkind hside
  have hall := hopen.append hc hfork₃ (.inr hpf.new) hyesne hrest
  have hfork₄ := hfork₃.run hfork₃ hrest.run hrest.loops
  cases side with
  | bare =>
    simp only [yields_bind, yields_addNode, yields_followFrom, yields_addEdge, yields_pure] at h
    obtain ⟨_, _, ⟨rfl, rfl⟩, _, _, rfl, _, _, rfl, rfl, rfl⟩ := h
    rw [FalseSide.ends, List.append_nil] at hall
    obtain ⟨hj, hdraw⟩ := hall.join hc "fi"
    have hforkHas : (d₄.withNode .join "fi").graph.Has fork :=
      (Draft.has_withNode hfork₄.sound.numbered).2 (.inl hfork₄.footing.has)
    have hout : ((d₄.withNode .join "fi").joined yes.toList (d₄.fresh .join "fi")).graph.outgoing
        fork = d₄.graph.outgoing fork := by
      rw [hj.outgoing hforkHas hyesne, Draft.outgoing_withNode hfork₄.sound.numbered]
    have hne : d₄.fresh .join "fi" ≠ fork := fun e =>
      Draft.fresh_not_has hfork₄.sound.numbered (e ▸ hfork₄.footing.has)
    have hfork₆ := hj.at (hfork₄.withNode .join "fi")
    refine ⟨hdraw.drawn.linkTo rfl (hdraw.sink _ rfl) hfork₆ hne ?_ rfl (.inr hpf.new), ?_⟩
    · rw [hout]
      exact free_fork hfork₄.sound.numbered hkind
    · rintro _ ⟨⟩
      refine ((Grows.withEdge hfork₆.sound.numbered hfork₆.footing.has
        (hdraw.drawn.finish _ rfl).1.footing.has _ _).outgoing _
        (hdraw.drawn.finish _ rfl).1.footing.has hne).trans (hdraw.sink _ rfl)
  | drawn no =>
    simp only at h
    split at h
    next hnone =>
      obtain ⟨rfl, rfl⟩ := yields_pure.1 h
      exact .nowhere hall.run hall.loops
    next =>
      simp only [yields_bind, yields_addNode, yields_followFrom, yields_pure] at h
      obtain ⟨_, _, ⟨rfl, rfl⟩, _, _, rfl, _, _, rfl, rfl, rfl⟩ := h
      obtain ⟨-, hdraw⟩ := hall.join hc "fi"
      rwa [Draft.joined, List.foldl_append] at hdraw

/-! ## Loops and choices -/

def LaysDone (x : Node) (done : Node → Node → Drawing Unit) : Prop :=
  ∀ check exit d a d', At x d check → check.kind = .fork → ⟨check, exit⟩ ∈ d.loops →
    (∀ e ∈ d.graph.outgoing check, e.target ≠ exit.id) → (done check exit).Yields d a d' →
    Run manner x check d d' ∧ d'.loops = d.loops

theorem laysDone_edge :
    LaysDone x fun check exit => addEdge check exit .condFalse "Done" := by
  intro check exit d a d' hc hk hl hout h
  simp only [yields_addEdge] at h
  subst h
  have ho := hc.sound.loops _ hl
  exact ⟨.one (.link hc.footing ho.has_exit (hc.ne_loop _ hl).symm (.inl ho.exit_kind) ho.exit_sink
    ⟨.inr (.inl hk), hout⟩ rfl), by simp⟩

theorem laysDone_else {suite : Body} (hb : Lays x fun c => Body.draw c suite) :
    LaysDone x (fun check exit => do
      let start ← branch check .condFalse "Done" "Else"
      followFrom (← suite.draw start) exit) := by
  intro check exit d a d' hc hk hl _ h
  simp only [yields_bind, yields_branch] at h
  obtain ⟨_, _, ⟨rfl, rfl⟩, finish, d₁, h₁, h⟩ := h
  have hp := hc.grown .virtual "Else" .condFalse "Done" (by decide)
  have hd := hb _ _ _ _ hp.stands hp.sink h₁
  have hr := hd.drawn.leaves (l := ⟨check, exit⟩) hl (fun n hn => free_of_sink (hd.sink n hn)) h
  exact ⟨(Run.one (move_branch hc hk (by decide))).trans hc.sound.numbered hc.sound.has_exit hr.1
    (.inr hp.new), hr.2.trans (by simp)⟩

theorem lays_drawLoop {label : Tree.Excerpt} {body : Node → Drawing (Option Node)}
    {done : Node → Node → Drawing Unit} (hb : Lays x body) (hdone : LaysDone x done) :
    Lays x fun c => drawLoop c label body done := by
  intro c d r d' hc hs h
  simp only [drawLoop, yields_bind, yields_readable, yields_append, yields_addNode, yields_openLoop,
    yields_branch, yields_closeLoop, yields_pure] at h
  obtain ⟨l, _, ⟨-, rfl⟩, check, d₁, ⟨hcheck, hd₁⟩, exit, d₂, ⟨hexit, hd₂⟩, _, d₃, hd₃, start, d₄,
    ⟨hstart, hd₄⟩, finish, d₅, h₅, _, d₆, h₆, _, d₇, h₇, _, _, rfl, rfl, rfl⟩ := h
  have hkind : check.kind = .fork := by rw [hcheck]; rfl
  have hpc : Placed x d check d₁ := by rw [hcheck, hd₁]; exact hc.grown .fork l .seq "" (by decide)
  have hlink : d₁.graph.Linked c.id check.id := by
    rw [hcheck, hd₁, Draft.linked_grown hc.sound.numbered]
    exact .inr ⟨rfl, rfl⟩
  obtain ⟨hcheck₃, hopen⟩ : At x d₃ check ∧ Loop.Open d₃.graph ⟨check, exit⟩ := by
    rw [hd₃, hd₂, hexit]
    exact hpc.stands.newLoop (.inl hkind) ⟨c.id, hlink⟩ "end loop"
  have hl₃ : d₃.loops = ⟨check, exit⟩ :: d.loops := by
    rw [hd₃, hd₂, Draft.withLoops, Draft.loops_withNode, hpc.loops]
  have hps : Placed x d₃ start d₄ := by rw [hstart, hd₄]; exact hcheck₃.grown _ _ _ _ (by decide)
  have hcheck₄ : At x d₄ check := by rw [hd₄]; exact hcheck₃.keptByGrown hcheck₃ _ _ _ _
  have hmem : (⟨check, exit⟩ : Loop) ∈ d₄.loops := by
    rw [hps.loops, hl₃]
    exact List.mem_cons_self
  -- the body and the way back to the check
  have hbody := hb start d₄ finish d₅ hps.stands hps.sink h₅
  obtain ⟨hr₆, hl₆⟩ := hbody.drawn.repeats (l := ⟨check, exit⟩) hmem
    (fun n hn => free_of_sink (hbody.sink n hn)) h₆
  have hcheck₆ := hcheck₄.run hps.stands hr₆ hl₆
  have hcs : check ≠ start := fun e => hps.new (e ▸ hcheck₃.footing.has)
  have hes : exit ≠ start := fun e => hps.new (e ▸ hopen.has_exit)
  have hout : ∀ e ∈ d₆.graph.outgoing check, e.target ≠ exit.id := by
    rw [(hps.stands.growsOf hr₆).outgoing check hcheck₄.footing.has hcs]
    intro e he ht
    have hlink := Graph.linked_iff_mem_outgoing.2 ⟨e, he, ht⟩
    rw [hd₄, Draft.linked_grown hcheck₃.sound.numbered] at hlink
    rcases hlink with hlink | ⟨-, hid⟩
    · rw [hd₃, Draft.withLoops, hd₂, hexit] at hlink
      exact Draft.not_linked_fresh hpc.stands.sound.numbered _
        ((Draft.linked_withNode hpc.stands.sound.numbered).1 hlink)
    · exact hcheck₃.sound.numbered.fresh_id_ne hopen.has_exit hid
  -- the way out
  obtain ⟨hr₇, hl₇⟩ := hdone check exit d₆ _ d₇ hcheck₆ hkind (hl₆ ▸ hmem) hout h₇
  have hr₃ : Run manner x c d d₃ := by
    subst hd₃ hd₂ hd₁ hcheck
    exact .step (.one (.forkJoin hc.footing (free_of_sink hs))) (.loops _) (.inl rfl)
  have hr₄ : Run manner x c d d₄ := by
    rw [hd₄]
    exact .step hr₃ (move_branch hcheck₃ hkind (by decide)) (.inr hpc.new)
  have hr₆' : Run manner x c d d₆ := hr₄.trans hc.sound.numbered hc.sound.has_exit hr₆
    (.inr fun h => hps.new ((hc.growsOf hr₃).has h))
  have hg₆ := hps.stands.growsOf hr₆
  have hg₇ := hcheck₆.growsOf hr₇
  have hopen₄ := hps.stands.sound.loops _ hmem
  refine ⟨.closeLoop (l := ⟨check, exit⟩) hc (hr₆'.trans hc.sound.numbered hc.sound.has_exit hr₇
    (.inr hpc.new)) (by rw [hl₇, hl₆, hps.loops, hl₃]) (hg₇.has (hg₆.has hopen₄.has_exit))
    hopen.exit_kind ?_, ?_⟩
  · have hg₁ : Grows c d d₁ := by rw [hd₁]; exact .grown hc.sound.numbered hc.footing.has _ _ _ _
    intro h
    exact Draft.fresh_not_has hpc.stands.sound.numbered (hexit ▸ hg₁.has h)
  · -- the exit leads nowhere, for it is neither where the body began nor the check
    rintro _ ⟨⟩
    have hec : exit ≠ check := (hcheck₄.ne_loop _ hmem).symm
    exact (hg₇.outgoing exit (hg₆.has hopen₄.has_exit) hec).trans
      ((hg₆.outgoing exit hopen₄.has_exit hes).trans hopen₄.exit_sink)

theorem lays_select {label : Tree.Excerpt} {complete : Bool} :
    Lays x fun c => Statement.draw c (.select label complete) := by
  intro c d r d' hc hs h
  simp only [Statement.draw, yields_bind, yields_readable, yields_append, yields_addNode] at h
  obtain ⟨l, _, ⟨-, rfl⟩, fork, d₁, ⟨rfl, rfl⟩, join, d₂, ⟨rfl, rfl⟩, h⟩ := h
  split at h
  next =>
    obtain ⟨rfl, rfl⟩ := yields_pure.1 h
    have hp := hc.grown .fork l .seq "" (by decide)
    have hq := hp.stands.sound.withJoin "end match"
    refine ⟨⟨.one (.forkJoin hc.footing (free_of_sink hs)), by simp, ?_⟩, ?_⟩
    · rintro _ ⟨⟩
      exact ⟨hq.stands, .inr fun h => hq.new
        ((Draft.has_grown hc.sound.numbered hc.footing.has).2 (.inl h))⟩
    · rintro _ ⟨⟩
      exact hq.sink
  next => exact absurd h not_yields_throw

/-! ## Guarded suites -/

theorem yields_handlerStart {scope n : Node} {d' : Draft} :
    (handlerStart scope).Yields d n d' ↔
      n = d.fresh .block "except" ∧ d' = d.grown scope .block "except" .err "Ex" := by
  simp only [handlerStart, yields_bind, yields_addNode, yields_addEdge, yields_pure]
  constructor
  · rintro ⟨_, _, ⟨rfl, rfl⟩, _, _, rfl, rfl, rfl⟩
    exact ⟨rfl, rfl⟩
  · rintro ⟨rfl, rfl⟩
    exact ⟨_, _, ⟨rfl, rfl⟩, ⟨⟩, _, rfl, rfl, rfl⟩

def Fresh (d : Draft) (c : Node) (d' : Draft) : Prop :=
  ∀ e ∈ d'.graph.outgoing c, e ∈ d.graph.outgoing c ∨ ∀ t, d.graph.Has t → e.target ≠ t.id

def LaysHandlers (x : Node) (l : List Body) : Prop :=
  ∀ scope d ends d', At x d scope → scope.kind = .virtual → scope.label = "try scope" →
    (drawHandlers scope l).Yields d ends d' → Opens x scope d ends d' ∧ Fresh d scope d'

theorem fresh_grown {kind : NodeKind} {label : Label} {edgeLabel : String} {edge : EdgeKind}
    (hd : d.graph.Numbered) : Fresh d c (d.grown c kind label edge edgeLabel) := by
  intro e he
  unfold Graph.outgoing at he ⊢
  rw [Draft.edges_grown hd, List.filter_append] at he
  rcases List.mem_append.1 he with he | he
  · exact .inl he
  · refine .inr fun t ht hid => ?_
    rw [List.mem_singleton.1 (List.mem_filter.1 he).1] at hid
    have hne : t.id ≠ (d.fresh kind label).id := hd.fresh_id_ne ht
    exact hne hid.symm

theorem Fresh.trans {d₁ d₂ d' : Draft} {n : Node} (h : Fresh d c d₁) (hg : Grows n d₁ d₂)
    (hc : d₁.graph.Has c) (hn : c ≠ n) (hg' : ∀ t, d.graph.Has t → d₂.graph.Has t)
    (h' : Fresh d₂ c d') : Fresh d c d' := by
  intro e he
  rcases h' e he with he | he
  · rw [hg.outgoing c hc hn] at he
    exact h e he
  · exact .inr fun t ht => he t (hg' t ht)

theorem move_handler (hc : At x d c) (hk : c.kind = .virtual) (hl : c.label = "try scope") :
    Move manner x c d (d.grown c .block "except" .err "Ex") :=
  .grow hc.footing (free_scope hc.sound.numbered hk hl) (by decide) nofun (by decide)

theorem laysHandlers_nil : LaysHandlers x [] := by
  intro scope d ends d' _ _ _ h
  simp only [drawHandlers, yields_pure] at h
  obtain ⟨rfl, rfl⟩ := h
  exact ⟨.nowhere .refl rfl, fun e he => .inl he⟩

/-- A handler that ends at some places or nowhere, and the handlers after it. -/
theorem handlers_append {scope n : Node} {d₁ d₂ d' : Draft} (finish : Option Node)
    {ends : List Node} {r : List Body} (hr : LaysHandlers x r) (hc : At x d scope)
    (hk : scope.kind = .virtual) (hl : scope.label = "try scope")
    (hn : n = d.fresh .block "except") (hd₁ : d₁ = d.grown scope .block "except" .err "Ex")
    (h : Draws x n d₁ finish d₂) (h' : (drawHandlers scope r).Yields d₂ ends d') :
    Opens x scope d (finish.toList ++ ends) d' ∧ Fresh d scope d' := by
  have hp : Placed x d n d₁ := by rw [hn, hd₁]; exact hc.grown _ _ _ _ (by decide)
  have hmove : Run manner x scope d d₁ := by rw [hd₁]; exact .one (move_handler hc hk hl)
  have hopen := Opens.behind hc hmove hp h
  have hscope₁ : At x d₁ scope := by rw [hd₁]; exact hc.keptByGrown hc _ _ _ _
  have hscope₂ := hscope₁.run hp.stands h.drawn.run h.drawn.loops
  have hsn : scope ≠ n := fun e => hp.new (e ▸ hc.footing.has)
  have hne : scope ∉ finish.toList := fun hmem => hopen.new scope hmem hc.footing.has
  obtain ⟨hrest, hfresh⟩ := hr scope d₂ ends d' hscope₂ hk hl h'
  refine ⟨hopen.append hc hscope₂ (.inl rfl) hne hrest, ?_⟩
  have hf₁ : Fresh d scope d₁ := by rw [hd₁]; exact fresh_grown hc.sound.numbered
  exact hf₁.trans (hp.stands.growsOf h.drawn.run) hscope₁.footing.has hsn
    (fun t ht => (hc.growsOf hopen.run).has ht) hfresh

theorem laysHandlers_missing {r : List Body} (hr : LaysHandlers x r) :
    LaysHandlers x (.missing :: r) := by
  intro scope d ends d' hc hk hl h
  simp only [drawHandlers, yields_bind, yields_handlerStart, yields_pure] at h
  obtain ⟨n, d₁, ⟨hn, hd₁⟩, rest, d₂, h, rfl, rfl⟩ := h
  have hp : Placed x d n d₁ := by rw [hn, hd₁]; exact hc.grown _ _ _ _ (by decide)
  exact handlers_append (some n) hr hc hk hl hn hd₁
    ⟨.refl hp.stands, fun k hk => Option.some.inj hk ▸ hp.sink⟩ h

theorem laysHandlers_suite {l : List Statement} {r : List Body}
    (hb : Lays x fun c => drawAll c l) (hr : LaysHandlers x r) :
    LaysHandlers x (.suite l :: r) := by
  intro scope d ends d' hc hk hl h
  simp only [drawHandlers, yields_bind, yields_handlerStart] at h
  obtain ⟨n, d₁, ⟨hn, hd₁⟩, finish, d₂, h₂, h⟩ := h
  have hp : Placed x d n d₁ := by rw [hn, hd₁]; exact hc.grown _ _ _ _ (by decide)
  have hdraw := hb n d₁ finish d₂ hp.stands hp.sink h₂
  cases finish with
  | none => exact handlers_append none hr hc hk hl hn hd₁ hdraw h
  | some k =>
    simp only [yields_bind, yields_pure] at h
    obtain ⟨rest, _, h, rfl, rfl⟩ := h
    exact handlers_append (some k) hr hc hk hl hn hd₁ hdraw h

theorem guarded_opens {scope : Node} {d₁ d₂ : Draft} {finish : Option Node} {body : Body}
    (hb : Lays x fun c => Body.draw c body) (hc : At x d c) (hs : d.graph.outgoing c = [])
    (hscope : scope = d.fresh .virtual "try scope")
    (hd₁ : d₁ = d.grown c .virtual "try scope" .seq "") (h : (body.draw scope).Yields d₁ finish d₂) :
    Draws x scope d₁ finish d₂ ∧ At x d₂ scope ∧ ¬ d.graph.Has scope ∧
      Opens x c d finish.toList d₂ := by
  have hp : Placed x d scope d₁ := by rw [hscope, hd₁]; exact hc.grown _ _ _ _ (by decide)
  have hr : Run manner x c d d₁ := by
    rw [hd₁]
    exact (draws_append hc hs .virtual "try scope" (by decide) (by decide)).drawn.run
  have hbody := hb scope d₁ finish d₂ hp.stands hp.sink h
  exact ⟨hbody, hp.stands.run hp.stands hbody.drawn.run hbody.drawn.loops, hp.new,
    .behind hc hr hp hbody⟩

/-- The ends of a guarded suite and of its handlers, with the suite's own end at the scope or at a
node that leads nowhere. -/
theorem guarded_free {scope : Node} {d₁ d₂ d₃ : Draft} {finish : Option Node}
    (hb : Draws x scope d₁ finish d₂) (hk : scope.kind = .virtual)
    (hl : scope.label = "try scope") (hg : Grows scope d₂ d₃)
    (ht : ∀ e ∈ d₃.graph.outgoing scope, e.target ≠ t.id) :
    ∀ n, finish = some n → manner.free (d₃.graph.outgoing n) n t := by
  intro n hn
  by_cases hns : n = scope
  · rw [hns]
    exact ⟨.inr (.inr ⟨hk, hl⟩), ht⟩
  · rw [hg.outgoing n (hb.drawn.finish n hn).1.footing.has hns]
    exact free_of_sink (hb.sink n hn)

theorem nodup_ends {d₂ d₃ : Draft} {finish : Option Node} {ends : List Node}
    (hf : ∀ n, finish = some n → d₂.graph.Has n) (h : Opens x c d₂ ends d₃) :
    (finish.toList ++ ends).Nodup := by
  refine List.nodup_append.2 ⟨nodup_toList finish, h.nodup, ?_⟩
  rintro a ha _ hb rfl
  exact h.new a hb (hf a (by simpa using ha))

theorem lays_guarded {body : Body} {handlers : List Body} (hb : Lays x fun c => Body.draw c body)
    (hh : LaysHandlers x handlers) :
    Lays x fun c => Statement.draw c (.guarded body handlers none) := by
  intro c d r d' hc hs h
  simp only [Statement.draw, yields_bind, yields_append, yields_addNode, yields_followFrom,
    yields_forM_follow, yields_pure] at h
  obtain ⟨scope, d₁, ⟨hscope, hd₁⟩, finish, d₂, h₂, ends, d₃, h₃, _, _, ⟨rfl, rfl⟩, _, _, rfl, _, _,
    rfl, rfl, rfl⟩ := h
  have hk : scope.kind = .virtual := by rw [hscope]; rfl
  have hl : scope.label = "try scope" := by rw [hscope]; rfl
  obtain ⟨hbody, hscope₂, hnew, hopen⟩ := guarded_opens hb hc hs hscope hd₁ h₂
  obtain ⟨hrest, -⟩ := hh scope d₂ ends d₃ hscope₂ hk hl h₃
  have hr₃ := hopen.run.trans hc.sound.numbered hc.sound.has_exit hrest.run (.inr hnew)
  have hd₃ := (hscope₂.run hscope₂ hrest.run hrest.loops).sound.numbered
  have he : ∀ n ∈ finish.toList ++ ends, At x d₃ n ∧
      manner.free (d₃.graph.outgoing n) n (d₃.fresh .join "end try") ∧
        (n = c ∨ ¬ d.graph.Has n) := by
    intro n hn
    rcases List.mem_append.1 hn with hn | hn
    · exact ⟨(hopen.stands n hn).run hscope₂ hrest.run hrest.loops,
        guarded_free hbody hk hl (hscope₂.growsOf hrest.run) (target_ne_fresh hd₃) n
          (by simpa using hn), .inr (hopen.new n hn)⟩
    · exact ⟨hrest.stands n hn, free_of_sink (hrest.sink n hn),
        .inr fun h => hrest.new n hn ((hc.growsOf hopen.run).has h)⟩
  obtain ⟨hj, hdraw⟩ := Drawn.join (m := manner) hc hr₃ (hrest.loops.trans hopen.loops) he
    (nodup_ends (fun n hn => (hbody.drawn.finish n hn).1.footing.has) hrest)
  have hsink := (hj.outgoing hj.has hj.notMem).trans hj.sink
  rw [Draft.joined, List.foldl_append] at hdraw hsink
  exact ⟨hdraw, fun n hn => Option.some.inj hn ▸ hsink⟩

theorem lays_guardedFinal {body suite : Body} {handlers : List Body}
    (hb : Lays x fun c => Body.draw c body) (hh : LaysHandlers x handlers)
    (hf : Lays x fun c => Body.draw c suite) :
    Lays x fun c => Statement.draw c (.guarded body handlers (some suite)) := by
  intro c d r d' hc hs h
  simp only [Statement.draw, yields_bind, yields_append, yields_addNode, yields_followFrom,
    yields_forM_follow] at h
  obtain ⟨scope, d₁, ⟨hscope, hd₁⟩, finish, d₂, h₂, join, d₃, ⟨hjoin, hd₃⟩, ends, d₄, h₄, _, _, rfl,
    _, d₅, hd₅, h⟩ := h
  have hk : scope.kind = .virtual := by rw [hscope]; rfl
  have hl : scope.label = "try scope" := by rw [hscope]; rfl
  obtain ⟨hbody, hscope₂, hnew, hopen⟩ := guarded_opens hb hc hs hscope hd₁ h₂
  have hq : Placed x d₂ join d₃ := by rw [hjoin, hd₃]; exact hscope₂.sound.withJoin "finally"
  have hscope₃ : At x d₃ scope := by rw [hd₃]; exact hscope₂.withNode _ _
  obtain ⟨hrest, hfresh⟩ := hh scope d₃ ends d₄ hscope₃ hk hl h₄
  have hg₄ := hscope₃.growsOf hrest.run
  have hg₃ : Grows scope d₂ d₃ := by rw [hd₃]; exact .withNode hscope₂.sound.numbered _ _
  have hr₃ : Run manner x c d d₃ := by rw [hd₃]; exact .step hopen.run (.join _) (.inl rfl)
  have hr₄ := hr₃.trans hc.sound.numbered hc.sound.has_exit hrest.run (.inr hnew)
  have hjs : join ≠ scope := fun e => hq.new (e ▸ hscope₂.footing.has)
  -- the scope is not linked to the join: its edges are older than the join or lead to handlers
  have hout : ∀ e ∈ d₄.graph.outgoing scope, e.target ≠ join.id := by
    intro e he
    rcases hfresh e he with he | he
    · rw [hd₃, Draft.outgoing_withNode hscope₂.sound.numbered] at he
      rw [hjoin]
      exact target_ne_fresh hscope₂.sound.numbered e he
    · exact he join hq.stands.footing.has
  have hfin : ∀ n, finish = some n → At x d₃ n := by
    intro n hn
    rw [hd₃]
    exact (hbody.drawn.finish n hn).1.withNode _ _
  have hj : Joinable manner x d₄ (finish.toList ++ ends) join :=
    { stands := by
        intro n hn
        rcases List.mem_append.1 hn with hn | hn
        · exact (hfin n (by simpa using hn)).run hscope₃ hrest.run hrest.loops
        · exact hrest.stands n hn
      free := by
        intro n hn
        rcases List.mem_append.1 hn with hn | hn
        · exact guarded_free hbody hk hl (hg₃.trans hg₄ (.inl rfl)) hout n
            (by simpa using hn)
        · exact free_of_sink (hrest.sink n hn)
      nodup := nodup_ends (fun n hn => (hfin n hn).footing.has) hrest
      has := hg₄.has hq.stands.footing.has
      kind := by rw [hjoin]; rfl
      sink := (hg₄.outgoing join hq.stands.footing.has hjs).trans hq.sink
      notMem := by
        intro hn
        rcases List.mem_append.1 hn with hn | hn
        · exact hq.new (hbody.drawn.finish join (by simpa using hn)).1.footing.has
        · exact hrest.new join hn hq.stands.footing.has }
  have hd₅' : d₅ = d₄.joined (finish.toList ++ ends) join := by
    rw [hd₅, Draft.joined, Draft.joined, Draft.joined, List.foldl_append]
  have hr₅ : Run manner x c d d₅ := by
    rw [hd₅']
    refine hj.run hr₄ fun n hn => .inr ?_
    rcases List.mem_append.1 hn with hn | hn
    · exact hopen.new n hn
    · exact fun h => hrest.new n hn ((hc.growsOf hr₃).has h)
  have hpj : Placed x d join d₅ := by
    refine ⟨?_, ?_, fun h => hq.new ((hc.growsOf hopen.run).has h), ?_⟩
    · rw [hd₅']
      exact hj.at (hq.stands.run hscope₃ hrest.run hrest.loops)
    · rw [hd₅']
      exact (hj.outgoing hj.has hj.notMem).trans hj.sink
    · rw [hd₅', Draft.joined_loops, hrest.loops, hq.loops, hopen.loops]
  exact (Opens.behind hc hr₅ hpj (hf join d₅ r d' hpj.stands hpj.sink h)).draws

end

/-! ## All statements -/

mutual

theorem Statement.lays (x : Node) : ∀ s : Statement, Lays x fun c => s.draw c
  | .plain label => lays_plain label
  | .call label => lays_call label
  | .hollow => lays_hollow
  | .ret => lays_ret
  | .raise => lays_raise
  | .cond _ body alternative => lays_cond (body.lays x) (alternative.laysSide x)
  | .loop _ body none => by
    simp only [Statement.draw]
    exact lays_drawLoop (body.lays x) laysDone_edge
  | .loop _ body (some suite) => by
    simp only [Statement.draw]
    exact lays_drawLoop (body.lays x) (laysDone_else (suite.lays x))
  | .breakLoop => lays_breakLoop
  | .continueLoop => lays_continueLoop
  | .select _ _ => lays_select
  | .guarded body handlers none => lays_guarded (body.lays x) (drawHandlers_lays x handlers)
  | .guarded body handlers (some suite) =>
    lays_guardedFinal (body.lays x) (drawHandlers_lays x handlers) (suite.lays x)
  | .scoped body => lays_scoped (body.lays x)

theorem Alternative.laysSide (x : Node) : ∀ a : Alternative, LaysSide x a
  | .none => laysSide_none
  | .other => laysSide_other
  | .elseIf _ body => laysSide_elseIf (body.lays x)
  | .otherwise body => laysSide_otherwise (body.lays x)

theorem Body.lays (x : Node) : ∀ b : Body, Lays x fun c => b.draw c
  | .missing => lays_missing
  | .suite l => by
    simp only [Body.draw]
    exact drawAll_lays x l

theorem drawAll_lays (x : Node) : ∀ l : List Statement, Lays x fun c => drawAll c l
  | [] => lays_nil
  | s :: r => lays_cons (s.lays x) (drawAll_lays x r)

theorem drawHandlers_lays (x : Node) : ∀ l : List Body, LaysHandlers x l
  | [] => laysHandlers_nil
  | .missing :: r => laysHandlers_missing (drawHandlers_lays x r)
  | .suite l :: r => laysHandlers_suite (drawAll_lays x l) (drawHandlers_lays x r)

end

/-! ## Functions -/

theorem run_of_draft {source : Bytes} {describe : String → Except DrawFault Value} {t : Tree} {d : Draft}
    (h : draft source describe t = (.ok (), d)) :
    ∃ s v, (Function.ofTree source t).name = .ok s ∧ describe s = .ok v ∧
      let f : Frame := ⟨"def ", "return/exit"⟩
      Run manner (f.finish "python_cfg" s v) (f.entry "python_cfg" s v) (f.opened "python_cfg" s v) d := by
  obtain ⟨s, v, hs, hv, r, d₁, hbody, rfl⟩ := yields_drawFunction.1 h
  have hdraw := (Function.ofTree source t).body.lays _ _ _ r d₁ (Frame.at_opened _ _ s v)
    (Frame.outgoing_opened _ _ s v _) hbody
  exact ⟨s, v, hs, hv, run_of_drawn hdraw.drawn fun n hn => free_of_sink (hdraw.sink n hn)⟩

theorem drafted {source : Bytes} {describe : String → Except DrawFault Value} {t : Tree} {d : Draft}
    (h : draft source describe t = (.ok (), d)) : Drafted manner ⟨"def ", "return/exit"⟩ d := by
  obtain ⟨s, v, -, -, hr⟩ := run_of_draft h
  exact ⟨_, s, v, hr⟩

end Workbench.Flow.Suite
