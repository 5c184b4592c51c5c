import Workbench.Proofs.Flow.Suite.Growth
import Workbench.Proofs.Flow.Tracing

/-!
# Traces of suites

What the drawing of a compound statement comes down to: what stands before each of its suites, and
how it ends behind them. It follows that a statement is drawn on from the node where the flow stands
and from nodes that came in since, that the flow goes on from one of these, and that the same loops
are open before and after.
-/

namespace Workbench.Flow.Suite

open Drawing

/-! ## What compound statements yield -/

-- the equations are worked out here, once, for all the lemmas below
attribute [local simp] Statement.draw

section
variable {label : Tree.Excerpt} {body suite : Body} {alternative : Alternative} {handlers : List Body}
  {c : Node} {d d' : Draft} {next : Option Node}

def forkStart (d : Draft) (c : Node) (s : String) : Node :=
  (d.grown c .fork s .seq "").fresh .virtual "True"

def withFork (d : Draft) (c : Node) (s : String) : Draft :=
  (d.grown c .fork s .seq "").grown (d.fresh .fork s) .virtual "True" .condTrue "True"

@[simp] theorem loops_withFork (d : Draft) (c : Node) (s : String) :
    (withFork d c s).loops = d.loops := by
  rw [withFork, Draft.loops_grown, Draft.loops_grown]

def closeCond (fork : Node) (yes : Option Node) : FalseSide → Drawing (Option Node)
  | .bare => do
    let join ← addNode .join "fi"
    followFrom yes join
    addEdge fork join .condFalse "False"
    return some join
  | .drawn no => do
    if yes.isNone && no.isNone then return none
    let join ← addNode .join "fi"
    followFrom yes join
    followFrom no join
    return some join

theorem yields_cond : (Statement.draw c (.cond label body alternative)).Yields d next d' ↔
    ∃ s yes d₁ side d₂, label = .ok s ∧
      (body.draw (forkStart d c s)).Yields (withFork d c s) yes d₁ ∧
      (alternative.draw (d.fresh .fork s)).Yields d₁ side d₂ ∧
      (closeCond (d.fresh .fork s) yes side).Yields d₂ next d' := by
  simp only [Statement.draw, yields_bind, yields_readable, yields_append, yields_branch]
  constructor
  · rintro ⟨s, _, ⟨hs, rfl⟩, _, _, ⟨rfl, rfl⟩, _, _, ⟨rfl, rfl⟩, yes, d₁, hyes, side, d₂, hside, h⟩
    exact ⟨s, yes, d₁, side, d₂, hs, hyes, hside, h⟩
  · rintro ⟨s, yes, d₁, side, d₂, hs, hyes, hside, h⟩
    exact ⟨s, _, ⟨hs, rfl⟩, _, _, ⟨rfl, rfl⟩, _, _, ⟨rfl, rfl⟩, yes, d₁, hyes, side, d₂, hside, h⟩

theorem yields_elseIf {body : Node → Drawing (Option Node)} :
    (drawElseIf c label body).Yields d next d' ↔
      ∃ s, label = .ok s ∧ (body (forkStart d c s)).Yields (withFork d c s) next d' := by
  simp only [drawElseIf, yields_bind, yields_readable, yields_append, yields_branch]
  constructor
  · rintro ⟨s, _, ⟨hs, rfl⟩, _, _, ⟨rfl, rfl⟩, _, _, ⟨rfl, rfl⟩, h⟩
    exact ⟨s, hs, h⟩
  · rintro ⟨s, hs, h⟩
    exact ⟨s, _, ⟨hs, rfl⟩, _, _, ⟨rfl, rfl⟩, _, _, ⟨rfl, rfl⟩, h⟩

def newLoop (d : Draft) (c : Node) (s : String) : Loop :=
  ⟨d.fresh .fork s, (d.grown c .fork s .seq "").fresh .join "end loop"⟩

def withExit (d : Draft) (c : Node) (s : String) : Draft :=
  (d.grown c .fork s .seq "").withNode .join "end loop"

def withLoop (d : Draft) (c : Node) (s : String) : Draft :=
  (withExit d c s).withLoops (newLoop d c s :: (withExit d c s).loops)

theorem loops_withLoop (d : Draft) (c : Node) (s : String) :
    (withLoop d c s).loops = newLoop d c s :: d.loops := by
  rw [withLoop, Draft.withLoops, withExit, Draft.loops_withNode, Draft.loops_grown]

def bodyStart (d : Draft) (c : Node) (s : String) : Node := (withLoop d c s).fresh .virtual "Body"

def withBody (d : Draft) (c : Node) (s : String) : Draft :=
  (withLoop d c s).grown (d.fresh .fork s) .virtual "Body" .condTrue "True"

theorem loops_withBody (d : Draft) (c : Node) (s : String) :
    (withBody d c s).loops = newLoop d c s :: d.loops := by
  rw [withBody, Draft.loops_grown, loops_withLoop]

theorem yields_drawLoop {body : Node → Drawing (Option Node)} {done : Node → Node → Drawing Unit} :
    (drawLoop c label body done).Yields d next d' ↔
      ∃ s finish d₁ d₂ d₃, label = .ok s ∧
        (body (bodyStart d c s)).Yields (withBody d c s) finish d₁ ∧
        (repeatFrom finish (newLoop d c s).header).Yields d₁ () d₂ ∧
        (done (newLoop d c s).header (newLoop d c s).exit).Yields d₂ () d₃ ∧
        next = some (newLoop d c s).exit ∧ d' = d₃.withLoops d₃.loops.tail := by
  simp only [drawLoop, yields_bind, yields_readable, yields_append, yields_addNode, yields_openLoop,
    yields_branch, yields_closeLoop, yields_pure]
  constructor
  · rintro ⟨s, _, ⟨hs, rfl⟩, _, _, ⟨rfl, rfl⟩, _, _, ⟨rfl, rfl⟩, _, _, rfl, _, _, ⟨rfl, rfl⟩, finish,
      d₁, h₁, _, d₂, h₂, _, d₃, h₃, _, _, rfl, rfl, rfl⟩
    exact ⟨s, finish, d₁, d₂, d₃, hs, h₁, h₂, h₃, rfl, rfl⟩
  · rintro ⟨s, finish, d₁, d₂, d₃, hs, h₁, h₂, h₃, rfl, rfl⟩
    exact ⟨s, _, ⟨hs, rfl⟩, _, _, ⟨rfl, rfl⟩, _, _, ⟨rfl, rfl⟩, ⟨⟩, _, rfl, _, _, ⟨rfl, rfl⟩, finish,
      d₁, h₁, ⟨⟩, d₂, h₂, ⟨⟩, d₃, h₃, ⟨⟩, _, rfl, rfl, rfl⟩

def drawElse (suite : Body) (check exit : Node) : Drawing Unit := do
  let start ← branch check .condFalse "Done" "Else"
  followFrom (← suite.draw start) exit

theorem yields_drawElse {check exit : Node} {a : Unit} :
    (drawElse suite check exit).Yields d a d' ↔ ∃ finish d₁,
      (suite.draw (d.fresh .virtual "Else")).Yields
        (d.grown check .virtual "Else" .condFalse "Done") finish d₁ ∧
      d' = d₁.joined finish.toList exit := by
  simp only [drawElse, yields_bind, yields_branch, yields_followFrom]
  constructor
  · rintro ⟨_, _, ⟨rfl, rfl⟩, finish, d₁, h, rfl⟩
    exact ⟨finish, d₁, h, rfl⟩
  · rintro ⟨finish, d₁, h, rfl⟩
    exact ⟨_, _, ⟨rfl, rfl⟩, finish, d₁, h, rfl⟩

def newScope (d : Draft) : Node := d.fresh .virtual "try scope"

def withScope (d : Draft) (c : Node) : Draft := d.grown c .virtual "try scope" .seq ""

theorem yields_guarded : (Statement.draw c (.guarded body handlers none)).Yields d next d' ↔
    ∃ finish d₁ ends d₂, (body.draw (newScope d)).Yields (withScope d c) finish d₁ ∧
      (drawHandlers (newScope d) handlers).Yields d₁ ends d₂ ∧
      next = some (d₂.fresh .join "end try") ∧
      d' = ((d₂.withNode .join "end try").joined finish.toList (d₂.fresh .join "end try")).joined ends
        (d₂.fresh .join "end try") := by
  simp only [Statement.draw, yields_bind, yields_append, yields_addNode, yields_followFrom,
    yields_forM_follow, yields_pure]
  constructor
  · rintro ⟨_, _, ⟨rfl, rfl⟩, finish, d₁, h₁, ends, d₂, h₂, _, _, ⟨rfl, rfl⟩, _, _, rfl, _, _, rfl,
      rfl, rfl⟩
    exact ⟨finish, d₁, ends, d₂, h₁, h₂, rfl, rfl⟩
  · rintro ⟨finish, d₁, ends, d₂, h₁, h₂, rfl, rfl⟩
    exact ⟨_, _, ⟨rfl, rfl⟩, finish, d₁, h₁, ends, d₂, h₂, _, _, ⟨rfl, rfl⟩, ⟨⟩, _, rfl, ⟨⟩, _, rfl,
      rfl, rfl⟩

theorem yields_guardedFinal :
    (Statement.draw c (.guarded body handlers (some suite))).Yields d next d' ↔
      ∃ finish d₁ ends d₂, (body.draw (newScope d)).Yields (withScope d c) finish d₁ ∧
        (drawHandlers (newScope d) handlers).Yields (d₁.withNode .join "finally") ends d₂ ∧
        (suite.draw (d₁.fresh .join "finally")).Yields
          ((d₂.joined finish.toList (d₁.fresh .join "finally")).joined ends
            (d₁.fresh .join "finally")) next d' := by
  simp only [Statement.draw, yields_bind, yields_append, yields_addNode, yields_followFrom,
    yields_forM_follow]
  constructor
  · rintro ⟨_, _, ⟨rfl, rfl⟩, finish, d₁, h₁, _, _, ⟨rfl, rfl⟩, ends, d₂, h₂, _, _, rfl, _, _, rfl, h⟩
    exact ⟨finish, d₁, ends, d₂, h₁, h₂, h⟩
  · rintro ⟨finish, d₁, ends, d₂, h₁, h₂, h⟩
    exact ⟨_, _, ⟨rfl, rfl⟩, finish, d₁, h₁, _, _, ⟨rfl, rfl⟩, ends, d₂, h₂, ⟨⟩, _, rfl, ⟨⟩, _, rfl, h⟩

def closeScoped : Option Node → Drawing (Option Node)
  | none => return none
  | some n => do return some (← append n .virtual "__exit__")

theorem yields_scoped : (Statement.draw c (.scoped body)).Yields d next d' ↔
    ∃ finish d₁, (body.draw (d.fresh .call "with ...")).Yields (d.grown c .call "with ..." .seq "")
      finish d₁ ∧ (closeScoped finish).Yields d₁ next d' := by
  simp only [Statement.draw, yields_bind, yields_append]
  constructor
  · rintro ⟨_, _, ⟨rfl, rfl⟩, finish, d₁, h₁, h⟩
    refine ⟨finish, d₁, h₁, ?_⟩
    cases finish <;> exact h
  · rintro ⟨finish, d₁, h₁, h⟩
    refine ⟨_, _, ⟨rfl, rfl⟩, finish, d₁, h₁, ?_⟩
    cases finish <;> exact h

end

/-! ## Traces of statements -/

/-- The step draws on from the current node and from new ones, and has the same loops open at its
end. -/
def Traces (step : Node → Drawing (Option Node)) : Prop :=
  ∀ c d r d', (step c).Yields d r d' → Traced (· = c.id) d r.toList d' ∧ d'.loops = d.loops

def TracesSide (a : Alternative) : Prop :=
  ∀ fork d side d', (a.draw fork).Yields d side d' →
    Traced (· = fork.id) d side.ends d' ∧ d'.loops = d.loops

def TracesHandlers (l : List Body) : Prop :=
  ∀ scope d ends d', (drawHandlers scope l).Yields d ends d' →
    Traced (· = scope.id) d ends d' ∧ d'.loops = d.loops

theorem traced_grown (c : Node) (d : Draft) (kind : NodeKind) (label : Label) (edge : EdgeKind)
    (edgeLabel : String) :
    Traced (· = c.id) d ([c] ++ [d.fresh kind label]) (d.grown c kind label edge edgeLabel) :=
  (Traced.here c d).grow (List.mem_singleton_self c) kind label edge edgeLabel

theorem traced_withFork (c : Node) (d : Draft) (s : String) :
    Traced (· = c.id) d ([c] ++ [d.fresh .fork s] ++ [forkStart d c s]) (withFork d c s) :=
  (traced_grown c d .fork s .seq "").grow (by simp) .virtual "True" .condTrue "True"

theorem traced_withLoop (c : Node) (d : Draft) (s : String) :
    Traced (· = c.id) d ([c] ++ [(newLoop d c s).header] ++ [(newLoop d c s).exit])
      (withLoop d c s) :=
  ((traced_grown c d .fork s .seq "").node .join "end loop").loops _

theorem traced_withBody (c : Node) (d : Draft) (s : String) :
    Traced (· = c.id) d
      ([c] ++ [(newLoop d c s).header] ++ [(newLoop d c s).exit] ++ [bodyStart d c s])
      (withBody d c s) :=
  (traced_withLoop c d s).grow (by simp [newLoop]) .virtual "Body" .condTrue "True"

section
variable {A : String → Prop} {d d₁ d' : Draft} {known : List Node} {fork check : Node}
  {yes r finish : Option Node} {side : FalseSide}

/-- Behind two sides that were drawn, only their ends are drawn on from. -/
theorem traced_closeDrawn {no : Option Node} (h : Traced A d known d₁)
    (hyes : ∀ n ∈ yes.toList, n ∈ known) (hno : ∀ n ∈ no.toList, n ∈ known)
    (hy : (closeCond fork yes (.drawn no)).Yields d₁ r d') :
    Traced A d r.toList d' ∧ d'.loops = d₁.loops := by
  simp only [closeCond] at hy
  split at hy
  · obtain ⟨rfl, rfl⟩ := yields_pure.1 hy
    exact ⟨h.forget, rfl⟩
  · simp only [yields_bind, yields_addNode, yields_followFrom, yields_pure] at hy
    obtain ⟨_, _, ⟨rfl, rfl⟩, _, _, rfl, _, _, rfl, rfl, rfl⟩ := hy
    have hjoin := (h.node .join "fi").join yes.toList
      (fun n hn => List.mem_append_left _ (hyes n hn)) (d₁.fresh .join "fi")
    refine ⟨(hjoin.join no.toList (fun n hn => List.mem_append_left _ (hno n hn)) _).mono (by simp), ?_⟩
    rw [Draft.joined_loops, Draft.joined_loops, Draft.loops_withNode]

theorem traced_closeCond (h : Traced A d known d₁) (hfork : fork ∈ known)
    (hyes : ∀ n ∈ yes.toList, n ∈ known) (hno : ∀ n ∈ side.ends, n ∈ known)
    (hy : (closeCond fork yes side).Yields d₁ r d') :
    Traced A d r.toList d' ∧ d'.loops = d₁.loops := by
  cases side with
  | bare =>
    simp only [closeCond, yields_bind, yields_addNode, yields_followFrom, yields_addEdge,
      yields_pure] at hy
    obtain ⟨_, _, ⟨rfl, rfl⟩, _, _, rfl, _, _, rfl, rfl, rfl⟩ := hy
    have hjoin := (h.node .join "fi").join yes.toList
      (fun n hn => List.mem_append_left _ (hyes n hn)) (d₁.fresh .join "fi")
    exact ⟨(hjoin.edge (List.mem_append_left _ hfork) _ .condFalse "False").mono (by simp),
      Draft.joined_loops ..⟩
  | drawn no => exact traced_closeDrawn h hyes hno hy

theorem traced_repeatFrom {a : Unit} (h : Traced A d known d₁) (hf : ∀ n ∈ finish.toList, n ∈ known)
    (hy : (repeatFrom finish check).Yields d₁ a d') : Traced A d known d' ∧ d'.loops = d₁.loops := by
  obtain ⟨-, rfl⟩ | ⟨n, rfl, rfl⟩ := yields_repeatFrom hy
  · exact ⟨h, rfl⟩
  · exact ⟨h.edge (hf n (by simp)) check .jump "repeat", rfl⟩

theorem traced_closeScoped (h : Traced A d known d₁) (hf : ∀ n ∈ finish.toList, n ∈ known)
    (hy : (closeScoped finish).Yields d₁ r d') : Traced A d r.toList d' ∧ d'.loops = d₁.loops := by
  cases finish with
  | none =>
    obtain ⟨rfl, rfl⟩ := yields_pure.1 hy
    exact ⟨h.forget, rfl⟩
  | some n =>
    simp only [closeScoped, yields_bind, yields_append, yields_pure] at hy
    obtain ⟨_, _, ⟨rfl, rfl⟩, rfl, rfl⟩ := hy
    exact ⟨(h.grow (hf n (by simp)) .virtual "__exit__" .seq "").mono (by simp), rfl⟩

end

section
variable {label : Tree.Excerpt} {body suite : Body} {alternative : Alternative} {handlers : List Body}

theorem traces_append (kind : NodeKind) :
    Traces fun c => do return some (← append c kind (← readable label)) := by
  intro c d r d' h
  simp only [yields_bind, yields_readable, yields_append, yields_pure] at h
  obtain ⟨l, _, ⟨-, rfl⟩, _, _, ⟨rfl, rfl⟩, rfl, rfl⟩ := h
  exact ⟨(traced_grown c d kind l .seq "").mono (by simp), rfl⟩

theorem traces_leave (label : String) (edge : EdgeKind) : Traces fun c => do
    let n ← append c .exit label
    if let some exit := (← get).exit then addEdge n exit edge ""
    return none := by
  intro c d r d' h
  simp only [yields_bind, yields_append, yields_get] at h
  obtain ⟨_, _, ⟨rfl, rfl⟩, _, _, ⟨rfl, rfl⟩, h⟩ := h
  have hnew := traced_grown c d .exit label .seq ""
  split at h
  · simp only [yields_bind, yields_addEdge, yields_pure] at h
    obtain ⟨_, _, rfl, rfl, rfl⟩ := h
    exact ⟨(hnew.edge (by simp) _ edge "").forget, by simp⟩
  · obtain ⟨rfl, rfl⟩ := yields_pure.1 h
    exact ⟨hnew.forget, rfl⟩

theorem traced_jumped (c : Node) (d : Draft) (place : Loop → Node) (label : String) :
    Traced (· = c.id) d [] (d.jumped c place label) ∧ (d.jumped c place label).loops = d.loops := by
  refine ⟨((Traced.here c d).jump (List.mem_singleton_self c) place label).forget, ?_⟩
  unfold Draft.jumped
  split <;> rfl

theorem traces_breakLoop : Traces breakLoop := by
  intro c d r d' h
  obtain ⟨rfl, rfl⟩ := yields_breakLoop.1 h
  exact traced_jumped c d Loop.exit "break"

theorem traces_continueLoop : Traces continueLoop := by
  intro c d r d' h
  obtain ⟨rfl, rfl⟩ := yields_continueLoop.1 h
  exact traced_jumped c d Loop.header "continue"

theorem traces_select {complete : Bool} : Traces fun c => Statement.draw c (.select label complete) := by
  intro c d r d' h
  simp only [Statement.draw, yields_bind, yields_readable, yields_append, yields_addNode] at h
  obtain ⟨l, _, ⟨-, rfl⟩, _, _, ⟨rfl, rfl⟩, _, _, ⟨rfl, rfl⟩, h⟩ := h
  split at h
  · obtain ⟨rfl, rfl⟩ := yields_pure.1 h
    exact ⟨((traced_grown c d .fork l .seq "").node .join "end match").mono (by simp), by simp⟩
  · exact absurd h not_yields_throw

theorem traces_scoped (hb : Traces fun c => body.draw c) :
    Traces fun c => Statement.draw c (.scoped body) := by
  intro c d r d' h
  obtain ⟨finish, d₁, h₁, h⟩ := yields_scoped.1 h
  obtain ⟨hbody, hloops⟩ := hb _ _ _ _ h₁
  have hall := (traced_grown c d .call "with ..." .seq "").step (by simp) hbody
  obtain ⟨htraced, hlast⟩ := traced_closeScoped hall (by simp +contextual) h
  exact ⟨htraced, hlast.trans hloops⟩

theorem traces_elseIf {body : Node → Drawing (Option Node)} (hb : Traces body) :
    Traces fun c => drawElseIf c label body := by
  intro c d r d' h
  obtain ⟨s, -, h⟩ := yields_elseIf.1 h
  obtain ⟨hbody, hloops⟩ := hb _ _ _ _ h
  exact ⟨((traced_withFork c d s).step (by simp) hbody).mono fun n hn => List.mem_append_right _ hn,
    hloops.trans (loops_withFork d c s)⟩

theorem tracesSide_none : TracesSide .none := by
  intro fork d side d' h
  simp only [Alternative.draw, yields_pure] at h
  obtain ⟨rfl, rfl⟩ := h
  exact ⟨(Traced.here fork d).forget, rfl⟩

theorem tracesSide_other : TracesSide .other := by
  intro fork d side d' h
  simp only [Alternative.draw, yields_bind, yields_branch, yields_pure] at h
  obtain ⟨_, _, ⟨rfl, rfl⟩, rfl, rfl⟩ := h
  exact ⟨(traced_grown fork d .virtual "False" .condFalse "False").forget, rfl⟩

/-- What is drawn behind a new node on the side where a condition fails. -/
theorem tracesSide_drawn {step : Node → Drawing (Option Node)} (hs : Traces step) (fork : Node)
    (d : Draft) {no : Option Node} {d' : Draft}
    (h : (step (d.fresh .virtual "False")).Yields (d.grown fork .virtual "False" .condFalse "False") no
      d') : Traced (· = fork.id) d no.toList d' ∧ d'.loops = d.loops := by
  obtain ⟨hbody, hloops⟩ := hs _ _ _ _ h
  have hall := (traced_grown fork d .virtual "False" .condFalse "False").step (by simp) hbody
  exact ⟨hall.mono fun n hn => List.mem_append_right _ hn, hloops⟩

theorem tracesSide_otherwise (hb : Traces fun c => body.draw c) : TracesSide (.otherwise body) := by
  intro fork d side d' h
  simp only [Alternative.draw, yields_bind, yields_branch, yields_pure] at h
  obtain ⟨_, _, ⟨rfl, rfl⟩, no, _, h, rfl, rfl⟩ := h
  exact tracesSide_drawn hb fork d h

theorem tracesSide_elseIf (hb : Traces fun c => body.draw c) : TracesSide (.elseIf label body) := by
  intro fork d side d' h
  simp only [Alternative.draw, yields_bind, yields_branch, yields_pure] at h
  obtain ⟨_, _, ⟨rfl, rfl⟩, no, _, h, rfl, rfl⟩ := h
  exact tracesSide_drawn (traces_elseIf hb) fork d h

theorem traces_cond (hb : Traces fun c => body.draw c) (ha : TracesSide alternative) :
    Traces fun c => Statement.draw c (.cond label body alternative) := by
  intro c d r d' h
  obtain ⟨s, yes, d₁, side, d₂, -, hyes, hside, h⟩ := yields_cond.1 h
  obtain ⟨hbody, hloops⟩ := hb _ _ _ _ hyes
  obtain ⟨hrest, hloops'⟩ := ha _ _ _ _ hside
  have hall := ((traced_withFork c d s).step (by simp) hbody).step (n := d.fresh .fork s) (by simp) hrest
  obtain ⟨htraced, hlast⟩ := traced_closeCond hall (by simp) (by simp +contextual)
    (by simp +contextual) h
  exact ⟨htraced, hlast.trans (hloops'.trans (hloops.trans (loops_withFork d c s)))⟩

def TracesDone (done : Node → Node → Drawing Unit) : Prop :=
  ∀ check exit d a d', (done check exit).Yields d a d' →
    Traced (· = check.id) d [] d' ∧ d'.loops = d.loops

theorem tracesDone_edge : TracesDone fun check exit => addEdge check exit .condFalse "Done" := by
  intro check exit d a d' h
  obtain rfl := yields_addEdge.1 h
  exact ⟨((Traced.here check d).edge (by simp) exit .condFalse "Done").forget, rfl⟩

theorem tracesDone_else (hb : Traces fun c => suite.draw c) : TracesDone (drawElse suite) := by
  intro check exit d a d' h
  obtain ⟨finish, d₁, h₁, rfl⟩ := yields_drawElse.1 h
  obtain ⟨hbody, hloops⟩ := hb _ _ _ _ h₁
  have hall := (traced_grown check d .virtual "Else" .condFalse "Done").step (by simp) hbody
  exact ⟨(hall.join finish.toList (fun n hn => List.mem_append_right _ hn) exit).forget,
    (Draft.joined_loops ..).trans hloops⟩

theorem traces_drawLoop {body : Node → Drawing (Option Node)} {done : Node → Node → Drawing Unit}
    (hb : Traces body) (hdone : TracesDone done) : Traces fun c => drawLoop c label body done := by
  intro c d r d' h
  obtain ⟨s, finish, d₁, d₂, d₃, -, h₁, h₂, h₃, rfl, rfl⟩ := yields_drawLoop.1 h
  obtain ⟨hbody, hloops⟩ := hb _ _ _ _ h₁
  obtain ⟨hround, hloops'⟩ := traced_repeatFrom ((traced_withBody c d s).step (by simp) hbody)
    (by simp +contextual) h₂
  obtain ⟨hway, hloops''⟩ := hdone _ _ _ _ _ h₃
  have hall := hround.step (n := (newLoop d c s).header) (by simp) hway
  refine ⟨(hall.loops _).mono (by simp), ?_⟩
  -- the loops at the end of the body are those at its start: the new one and the old ones
  rw [Draft.withLoops, hloops'', hloops', hloops, loops_withBody, List.tail_cons]

theorem traces_guarded (hb : Traces fun c => body.draw c) (hh : TracesHandlers handlers) :
    Traces fun c => Statement.draw c (.guarded body handlers none) := by
  intro c d r d' h
  obtain ⟨finish, d₁, ends, d₂, h₁, h₂, rfl, rfl⟩ := yields_guarded.1 h
  obtain ⟨hbody, hloops⟩ := hb _ _ _ _ h₁
  obtain ⟨hrest, hloops'⟩ := hh _ _ _ _ h₂
  have hall := (((traced_grown c d .virtual "try scope" .seq "").step (by simp [newScope]) hbody).step
    (n := newScope d) (by simp [newScope]) hrest).node .join "end try"
  refine ⟨((hall.join finish.toList (by simp +contextual) _).join ends (by simp +contextual) _).mono (by simp), ?_⟩
  rw [Draft.joined_loops, Draft.joined_loops, Draft.loops_withNode, hloops', hloops]
  rfl

theorem traces_guardedFinal (hb : Traces fun c => body.draw c) (hh : TracesHandlers handlers)
    (hf : Traces fun c => suite.draw c) :
    Traces fun c => Statement.draw c (.guarded body handlers (some suite)) := by
  intro c d r d' h
  obtain ⟨finish, d₁, ends, d₂, h₁, h₂, h⟩ := yields_guardedFinal.1 h
  obtain ⟨hbody, hloops⟩ := hb _ _ _ _ h₁
  obtain ⟨hrest, hloops'⟩ := hh _ _ _ _ h₂
  obtain ⟨hfinal, hloops''⟩ := hf _ _ _ _ h
  have hall := (((traced_grown c d .virtual "try scope" .seq "").step (by simp [newScope]) hbody).node
    .join "finally").step (n := newScope d) (by simp [newScope]) hrest
  have hjoined := (hall.join finish.toList (by simp +contextual)
    (d₁.fresh .join "finally")).join ends (by simp +contextual) (d₁.fresh .join "finally")
  refine ⟨(hjoined.step (by simp) hfinal).mono fun n hn => List.mem_append_right _ hn, ?_⟩
  rw [hloops'', Draft.joined_loops, Draft.joined_loops, hloops', Draft.loops_withNode, hloops]
  rfl

theorem tracesHandlers_nil : TracesHandlers [] := by
  intro scope d ends d' h
  simp only [drawHandlers, yields_pure] at h
  obtain ⟨rfl, rfl⟩ := h
  exact ⟨(Traced.here scope d).forget, rfl⟩

theorem tracesHandlers_missing {r : List Body} (hr : TracesHandlers r) :
    TracesHandlers (.missing :: r) := by
  intro scope d ends d' h
  simp only [drawHandlers, yields_bind, yields_handlerStart, yields_pure] at h
  obtain ⟨_, _, ⟨rfl, rfl⟩, rest, _, h, rfl, rfl⟩ := h
  obtain ⟨hrest, hloops⟩ := hr _ _ _ _ h
  have hall := (traced_grown scope d .block "except" .err "Ex").step (n := scope) (by simp) hrest
  exact ⟨hall.mono (by simp +contextual), hloops⟩

theorem yields_handlers_suite {l : List Statement} {r : List Body} {scope : Node} {d d' : Draft}
    {ends : List Node} : (drawHandlers scope (.suite l :: r)).Yields d ends d' ↔ ∃ finish d₁ rest,
      (drawAll (d.fresh .block "except") l).Yields (d.grown scope .block "except" .err "Ex") finish d₁ ∧
      (drawHandlers scope r).Yields d₁ rest d' ∧ ends = finish.toList ++ rest := by
  simp only [drawHandlers, yields_bind, yields_handlerStart]
  constructor
  · rintro ⟨_, _, ⟨rfl, rfl⟩, finish, d₁, h₁, h⟩
    cases finish with
    | none => exact ⟨none, d₁, ends, h₁, h, rfl⟩
    | some n =>
      simp only [yields_bind, yields_pure] at h
      obtain ⟨rest, _, h, rfl, rfl⟩ := h
      exact ⟨some n, d₁, rest, h₁, h, rfl⟩
  · rintro ⟨finish, d₁, rest, h₁, h, rfl⟩
    refine ⟨_, _, ⟨rfl, rfl⟩, finish, d₁, h₁, ?_⟩
    cases finish with
    | none => exact h
    | some n =>
      simp only [yields_bind, yields_pure]
      exact ⟨rest, d', h, rfl, rfl⟩

theorem tracesHandlers_suite {l : List Statement} {r : List Body} (hb : Traces fun c => drawAll c l)
    (hr : TracesHandlers r) : TracesHandlers (.suite l :: r) := by
  intro scope d ends d' h
  obtain ⟨finish, d₁, rest, h₁, h₂, rfl⟩ := yields_handlers_suite.1 h
  obtain ⟨hbody, hloops⟩ := hb _ _ _ _ h₁
  obtain ⟨hrest, hloops'⟩ := hr _ _ _ _ h₂
  have hall := ((traced_grown scope d .block "except" .err "Ex").step (by simp) hbody).step (n := scope)
    (by simp) hrest
  refine ⟨hall.mono ?_, hloops'.trans hloops⟩
  intro n hn
  rcases List.mem_append.1 hn with hn | hn
  · exact List.mem_append_left _ (List.mem_append_right _ hn)
  · exact List.mem_append_right _ hn

theorem yields_cons {s : Statement} {r : List Statement} {c : Node} {d d' : Draft}
    {finish : Option Node} : (drawAll c (s :: r)).Yields d finish d' ↔ ∃ next d₁,
      (s.draw c).Yields d next d₁ ∧
        (next = none ∧ finish = none ∧ d' = d₁ ∨
          ∃ n, next = some n ∧ (drawAll n r).Yields d₁ finish d') := by
  simp only [drawAll, yields_bind]
  refine exists_congr fun next => exists_congr fun d₁ => and_congr_right fun _ => ?_
  cases next <;> simp [eq_comm]

theorem traces_nil : Traces fun c => drawAll c [] := by
  intro c d r d' h
  simp only [drawAll, yields_pure] at h
  obtain ⟨rfl, rfl⟩ := h
  exact ⟨Traced.here c d, rfl⟩

theorem traces_cons {s : Statement} {r : List Statement} (hs : Traces fun c => s.draw c)
    (hr : Traces fun c => drawAll c r) : Traces fun c => drawAll c (s :: r) := by
  intro c d finish d' h
  obtain ⟨next, d₁, h₁, h⟩ := yields_cons.1 h
  obtain ⟨hfirst, hloops⟩ := hs _ _ _ _ h₁
  rcases h with ⟨rfl, rfl, rfl⟩ | ⟨n, rfl, h⟩
  · exact ⟨hfirst, hloops⟩
  · obtain ⟨hrest, hloops'⟩ := hr _ _ _ _ h
    exact ⟨(hfirst.step (by simp) hrest).mono fun m hm => List.mem_append_right _ hm,
      hloops'.trans hloops⟩

end

mutual

theorem Statement.traces : ∀ s : Statement, Traces fun c => s.draw c
  | .plain label => by
    simp only [Statement.draw]
    exact traces_append .block
  | .call label => by
    simp only [Statement.draw]
    exact traces_append .call
  | .hollow => by
    intro c d r d' h
    simp only [Statement.draw, not_yields_throw] at h
  | .ret => by
    simp only [Statement.draw]
    exact traces_leave "return" .seq
  | .raise => by
    simp only [Statement.draw]
    exact traces_leave "raise" .err
  | .cond _ body alternative => traces_cond body.traces alternative.traces
  | .loop _ body none => by
    simp only [Statement.draw]
    exact traces_drawLoop body.traces tracesDone_edge
  | .loop _ body (some suite) => by
    simp only [Statement.draw]
    exact traces_drawLoop body.traces (tracesDone_else suite.traces)
  | .breakLoop => by
    simp only [Statement.draw]
    exact traces_breakLoop
  | .continueLoop => by
    simp only [Statement.draw]
    exact traces_continueLoop
  | .select _ _ => traces_select
  | .guarded body handlers none => traces_guarded body.traces (drawHandlers_traces handlers)
  | .guarded body handlers (some suite) =>
    traces_guardedFinal body.traces (drawHandlers_traces handlers) suite.traces
  | .scoped body => traces_scoped body.traces

theorem Alternative.traces : ∀ a : Alternative, TracesSide a
  | .none => tracesSide_none
  | .other => tracesSide_other
  | .elseIf _ body => tracesSide_elseIf body.traces
  | .otherwise body => tracesSide_otherwise body.traces

theorem Body.traces : ∀ b : Body, Traces fun c => b.draw c
  | .missing => by
    intro c d r d' h
    simp only [Body.draw, not_yields_throw] at h
  | .suite l => by
    simp only [Body.draw]
    exact drawAll_traces l

theorem drawAll_traces : ∀ l : List Statement, Traces fun c => drawAll c l
  | [] => traces_nil
  | s :: r => traces_cons s.traces (drawAll_traces r)

theorem drawHandlers_traces : ∀ l : List Body, TracesHandlers l
  | [] => tracesHandlers_nil
  | .missing :: r => tracesHandlers_missing (drawHandlers_traces r)
  | .suite l :: r => tracesHandlers_suite (drawAll_traces l) (drawHandlers_traces r)

end

end Workbench.Flow.Suite
