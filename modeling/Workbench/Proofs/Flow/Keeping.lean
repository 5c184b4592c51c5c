import Workbench.Proofs.Flow.Function
import Workbench.Proofs.Flow.Merging
import Workbench.Flow.Outline

/-!
# What drawing never does

Drawing a function comes down to new nodes, new edges that are no links, and other open loops. So a
property of drafts that all these keep holds at the end if it holds at the start. This gives what the
moves do not tell: the name of the graph, and that none of its edges is a link.
-/

namespace Workbench.Flow

/-- A property of drafts that new nodes, new edges other than links, and other loops keep. -/
structure Lasting (P : Draft → Prop) : Prop where
  node : ∀ d kind label, P d → P (d.withNode kind label)
  edge : ∀ d u v kind label, kind ≠ .link → P d → P (d.withEdge u v kind label)
  loops : ∀ d l, P d → P (d.withLoops l)

namespace Drawing

variable {α β : Type} {P : Draft → Prop}

/-- A step that keeps a property of drafts whenever it succeeds. -/
def Keeps (P : Draft → Prop) (x : Drawing α) : Prop := ∀ d a d', x.Yields d a d' → P d → P d'

/-! ## Steps made of others -/

theorem Keeps.pure (a : α) : Keeps P (Pure.pure a : Drawing α) := by
  intro d b d' h hd
  obtain ⟨-, rfl⟩ := yields_pure.1 h
  exact hd

theorem Keeps.throw (e : DrawFault) : Keeps P (throw e : Drawing α) :=
  fun _ _ _ h => absurd h not_yields_throw

theorem Keeps.get : Keeps P (get : Drawing Draft) := by
  intro d b d' h hd
  obtain ⟨-, rfl⟩ := yields_get.1 h
  exact hd

theorem Keeps.bind {x : Drawing α} {f : α → Drawing β} (hx : Keeps P x) (hf : ∀ a, Keeps P (f a)) :
    Keeps P (x >>= f) := by
  intro d b d' h hd
  obtain ⟨a, d₁, h₁, h₂⟩ := yields_bind.1 h
  exact hf a d₁ b d' h₂ (hx d a d₁ h₁ hd)

theorem Keeps.readable (text : Tree.Excerpt) : Keeps P (readable text) := by
  intro d b d' h hd
  obtain ⟨-, rfl⟩ := yields_readable.1 h
  exact hd

theorem Keeps.functionExit : Keeps P functionExit := by
  intro d b d' h hd
  obtain ⟨-, rfl⟩ := yields_functionExit.1 h
  exact hd

section
variable (hP : Lasting P)
include hP

/-! ## Elementary steps -/

theorem Keeps.addNode (kind : NodeKind) (label : Label) : Keeps P (addNode kind label) := by
  intro d n d' h hd
  obtain ⟨-, rfl⟩ := yields_addNode.1 h
  exact hP.node d kind label hd

theorem Keeps.addEdge (u v : Node) {kind : EdgeKind} (label : String) (hk : kind ≠ .link) :
    Keeps P (addEdge u v kind label) := by
  intro d a d' h hd
  rw [yields_addEdge.1 h]
  exact hP.edge d u v kind label hk hd

theorem Keeps.follow (u v : Node) : Keeps P (follow u v) := .addEdge hP u v "" (by decide)

theorem Keeps.followFrom (finish : Option Node) (v : Node) : Keeps P (followFrom finish v) := by
  cases finish with
  | none => exact .pure _
  | some u => exact .follow hP u v

theorem Keeps.follows (v : Node) : ∀ ends : List Node, Keeps P (ends.forM (Drawing.follow · v))
  | [] => .pure _
  | u :: ends => .bind (.follow hP u v) fun _ => Keeps.follows v ends

theorem Keeps.append (c : Node) (kind : NodeKind) (label : Label) : Keeps P (append c kind label) :=
  .bind (.addNode hP kind label) fun n => .bind (.follow hP c n) fun _ => .pure n

theorem Keeps.branch (c : Node) {kind : EdgeKind} (edgeLabel label : String) (hk : kind ≠ .link) :
    Keeps P (branch c kind edgeLabel label) :=
  .bind (.addNode hP .virtual label) fun n => .bind (.addEdge hP c n edgeLabel hk) fun _ => .pure n

theorem Keeps.openLoop (header exit : Node) : Keeps P (openLoop header exit) := by
  intro d a d' h hd
  rw [yields_openLoop.1 h]
  exact hP.loops d _ hd

theorem Keeps.closeLoop : Keeps P closeLoop := by
  intro d a d' h hd
  rw [yields_closeLoop.1 h]
  exact hP.loops d _ hd

theorem Keeps.repeatFrom (finish : Option Node) (header : Node) :
    Keeps P (repeatFrom finish header) := by
  cases finish with
  | none => exact .pure _
  | some n => exact .addEdge hP n header "repeat" (by decide)

theorem keeps_jumped {d : Draft} (c : Node) (place : Loop → Node) (label : String) (hd : P d) :
    P (d.jumped c place label) := by
  unfold Draft.jumped
  split
  · exact hd
  · exact hP.edge d c _ .jump label (by decide) hd

theorem Keeps.breakLoop (c : Node) : Keeps P (breakLoop c) := by
  intro d r d' h hd
  rw [(yields_breakLoop.1 h).2]
  exact keeps_jumped hP c Loop.exit "break" hd

theorem Keeps.continueLoop (c : Node) : Keeps P (continueLoop c) := by
  intro d r d' h hd
  rw [(yields_continueLoop.1 h).2]
  exact keeps_jumped hP c Loop.header "continue" hd

end

end Drawing

/-! ## Suites -/

namespace Suite

open Drawing

variable {P : Draft → Prop}

theorem handlerStart_keeps (hP : Lasting P) (scope : Node) : Keeps P (handlerStart scope) :=
  .bind (.addNode hP .block "except") fun n =>
    .bind (.addEdge hP scope n "Ex" (by decide)) fun _ => .pure n

theorem drawElseIf_keeps (hP : Lasting P) (c : Node) (label : Tree.Excerpt) {body : Node → Drawing (Option Node)}
    (hb : ∀ n, Keeps P (body n)) : Keeps P (drawElseIf c label body) :=
  .bind (.readable label) fun l => .bind (.append hP c .fork l) fun fork =>
    .bind (.branch hP fork "True" "True" (by decide)) hb

theorem drawLoop_keeps (hP : Lasting P) (c : Node) (label : Tree.Excerpt) {body : Node → Drawing (Option Node)}
    {done : Node → Node → Drawing Unit} (hb : ∀ n, Keeps P (body n))
    (hd : ∀ check exit, Keeps P (done check exit)) : Keeps P (drawLoop c label body done) :=
  .bind (.readable label) fun l => .bind (.append hP c .fork l) fun check =>
    .bind (.addNode hP .join "end loop") fun exit => .bind (.openLoop hP check exit) fun _ =>
      .bind (.branch hP check "True" "Body" (by decide)) fun start => .bind (hb start) fun finish =>
        .bind (.repeatFrom hP finish check) fun _ => .bind (hd check exit) fun _ =>
          .bind (.closeLoop hP) fun _ => .pure (some exit)

-- by recursion on the tree; each case goes through the steps of the drawing in their order
mutual

theorem Statement.keeps (hP : Lasting P) : ∀ (s : Statement) (c : Node), Keeps P (s.draw c)
  | .plain label, c => by
    rw [Statement.draw]
    exact .bind (.readable label) fun l => .bind (.append hP c .block l) fun n => .pure (some n)
  | .call label, c => by
    rw [Statement.draw]
    exact .bind (.readable label) fun l => .bind (.append hP c .call l) fun n => .pure (some n)
  | .hollow, c => by
    rw [Statement.draw]
    exact .throw _
  | .ret, c => by
    rw [Statement.draw]
    refine .bind (.append hP c .exit "return") fun n => .bind .get fun d => ?_
    cases d.exit with
    | none => exact .pure none
    | some x => exact .bind (.follow hP n x) fun _ => .pure none
  | .raise, c => by
    rw [Statement.draw]
    refine .bind (.append hP c .exit "raise") fun n => .bind .get fun d => ?_
    cases d.exit with
    | none => exact .pure none
    | some x => exact .bind (.addEdge hP n x "" (by decide)) fun _ => .pure none
  | .cond label body alternative, c => by
    rw [Statement.draw]
    refine .bind (.readable label) fun l => .bind (.append hP c .fork l) fun fork =>
      .bind (.branch hP fork "True" "True" (by decide)) fun start => .bind (body.keeps hP start) fun yes =>
        .bind (alternative.keeps hP fork) fun side => ?_
    cases side with
    | bare =>
      exact .bind (.addNode hP .join "fi") fun join => .bind (.followFrom hP yes join) fun _ =>
        .bind (.addEdge hP fork join "False" (by decide)) fun _ => .pure (some join)
    | drawn no =>
      dsimp only
      split
      · exact .pure none
      · exact .bind (.addNode hP .join "fi") fun join => .bind (.followFrom hP yes join) fun _ =>
          .bind (.followFrom hP no join) fun _ => .pure (some join)
  | .loop label body none, c => by
    rw [Statement.draw]
    exact drawLoop_keeps hP c label (body.keeps hP) fun check exit =>
      .addEdge hP check exit "Done" (by decide)
  | .loop label body (some suite), c => by
    rw [Statement.draw]
    exact drawLoop_keeps hP c label (body.keeps hP) fun check exit =>
      .bind (.branch hP check "Done" "Else" (by decide)) fun start =>
        .bind (suite.keeps hP start) fun finish => .followFrom hP finish exit
  | .breakLoop, c => by
    rw [Statement.draw]
    exact .breakLoop hP c
  | .continueLoop, c => by
    rw [Statement.draw]
    exact .continueLoop hP c
  | .select label complete, c => by
    rw [Statement.draw]
    refine .bind (.readable label) fun l => .bind (.append hP c .fork l) fun _ =>
      .bind (.addNode hP .join "end match") fun join => ?_
    split
    · exact .pure (some join)
    · exact .throw _
  | .guarded body handlers none, c => by
    rw [Statement.draw]
    exact .bind (.append hP c .virtual "try scope") fun scope => .bind (body.keeps hP scope) fun finish =>
      .bind (drawHandlers_keeps hP handlers scope) fun ends => .bind (.addNode hP .join "end try") fun join =>
        .bind (.followFrom hP finish join) fun _ => .bind (.follows hP join ends) fun _ =>
          .pure (some join)
  | .guarded body handlers (some suite), c => by
    rw [Statement.draw]
    exact .bind (.append hP c .virtual "try scope") fun scope => .bind (body.keeps hP scope) fun finish =>
      .bind (.addNode hP .join "finally") fun join => .bind (drawHandlers_keeps hP handlers scope) fun ends =>
        .bind (.followFrom hP finish join) fun _ => .bind (.follows hP join ends) fun _ =>
          suite.keeps hP join
  | .scoped body, c => by
    rw [Statement.draw]
    refine .bind (.append hP c .call "with ...") fun enter => .bind (body.keeps hP enter) fun finish => ?_
    cases finish with
    | none => exact .pure none
    | some n => exact .bind (.append hP n .virtual "__exit__") fun m => .pure (some m)

theorem Alternative.keeps (hP : Lasting P) : ∀ (a : Alternative) (fork : Node), Keeps P (a.draw fork)
  | .none, fork => by
    rw [Alternative.draw]
    exact .pure _
  | .other, fork => by
    rw [Alternative.draw]
    exact .bind (.branch hP fork "False" "False" (by decide)) fun _ => .pure _
  | .elseIf label body, fork => by
    rw [Alternative.draw]
    exact .bind (.branch hP fork "False" "False" (by decide)) fun start =>
      .bind (drawElseIf_keeps hP start label (body.keeps hP)) fun _ => .pure _
  | .otherwise body, fork => by
    rw [Alternative.draw]
    exact .bind (.branch hP fork "False" "False" (by decide)) fun start =>
      .bind (body.keeps hP start) fun _ => .pure _

theorem Body.keeps (hP : Lasting P) : ∀ (b : Body) (c : Node), Keeps P (b.draw c)
  | .missing, c => by
    rw [Body.draw]
    exact .throw _
  | .suite l, c => by
    rw [Body.draw]
    exact drawAll_keeps hP l c

theorem drawAll_keeps (hP : Lasting P) : ∀ (l : List Statement) (c : Node), Keeps P (drawAll c l)
  | [], c => by
    rw [drawAll]
    exact .pure _
  | s :: r, c => by
    rw [drawAll]
    refine .bind (s.keeps hP c) fun finish => ?_
    cases finish with
    | none => exact .pure none
    | some n => exact drawAll_keeps hP r n

theorem drawHandlers_keeps (hP : Lasting P) : ∀ (l : List Body) (scope : Node), Keeps P (drawHandlers scope l)
  | [], scope => by
    rw [drawHandlers]
    exact .pure _
  | .missing :: r, scope => by
    rw [drawHandlers]
    exact .bind (handlerStart_keeps hP scope) fun n =>
      .bind (drawHandlers_keeps hP r scope) fun ends => .pure (n :: ends)
  | .suite l :: r, scope => by
    rw [drawHandlers]
    refine .bind (handlerStart_keeps hP scope) fun start => .bind (drawAll_keeps hP l start) fun finish => ?_
    cases finish with
    | none => exact drawHandlers_keeps hP r scope
    | some n => exact .bind (drawHandlers_keeps hP r scope) fun ends => .pure (n :: ends)

end

end Suite

/-! ## Blocks -/

namespace Braced

open Drawing

variable {P : Draft → Prop}

theorem drawCheck_keeps (hP : Lasting P) (c : Node) (mark : Tree) : Keeps P (drawCheck c mark) :=
  .bind (.append hP c .virtual _) fun check => .bind .functionExit fun x =>
    .bind (.addEdge hP check x "Err" (by decide)) fun _ => .pure check

theorem drawChecks_keeps (hP : Lasting P) :
    ∀ (marks : List Tree) (c : Node), Keeps P (drawChecks c marks)
  | [], c => .pure c
  | mark :: marks, c => .bind (drawCheck_keeps hP c mark) (drawChecks_keeps hP marks)

theorem appendCondition_keeps (hP : Lasting P) (c : Node) (label : Tree.Excerpt) :
    Keeps P (appendCondition c label) :=
  .bind (.readable label) fun l => .bind (.append hP c .fork l) fun fork =>
    .bind (.addNode hP .block "Then") fun _ => .pure fork

theorem joinSides_keeps (hP : Lasting P) (fork : Node) (yes no : Option Node) : Keeps P (joinSides fork yes no) := by
  unfold joinSides
  split
  · exact .pure none
  · refine .bind (.addNode hP .join "fi") fun join => .bind (.followFrom hP yes join) fun _ => ?_
    cases no with
    | none => exact .pure (some join)
    | some n =>
      dsimp only
      split
      · exact .bind (.addEdge hP fork join "False" (by decide)) fun _ => .pure (some join)
      · exact .bind (.follow hP n join) fun _ => .pure (some join)

mutual

theorem Statement.keeps (hP : Lasting P) : ∀ (s : Statement) (c : Node), Keeps P (s.draw c)
  | .checked marks inner, c => by
    rw [Statement.draw]
    exact .bind (drawChecks_keeps hP marks c) (inner.keeps hP)
  | .plain label, c => by
    rw [Statement.draw]
    exact .bind (.readable label) fun l => .bind (.append hP c .block l) fun n => .pure (some n)
  | .call label, c => by
    rw [Statement.draw]
    exact .bind (.readable label) fun l => .bind (.append hP c .call l) fun n => .pure (some n)
  | .hollow, c => by
    rw [Statement.draw]
    exact .throw _
  | .ret, c => by
    rw [Statement.draw]
    exact .bind (.append hP c .exit "return") fun n => .bind .functionExit fun x =>
      .bind (.follow hP n x) fun _ => .pure none
  | .panic, c => by
    rw [Statement.draw]
    exact .bind (.append hP c .exit "panic!") fun _ => .pure none
  | .cond label consequence none, c => by
    rw [Statement.draw]
    exact .bind (appendCondition_keeps hP c label) fun fork =>
      .bind (consequence.keeps hP fork "True" (by decide)) fun yes => joinSides_keeps hP fork yes _
  | .cond label consequence (some side), c => by
    rw [Statement.draw]
    exact .bind (appendCondition_keeps hP c label) fun fork =>
      .bind (consequence.keeps hP fork "True" (by decide)) fun yes =>
        .bind (side.keeps hP fork "False" (by decide)) fun no => joinSides_keeps hP fork yes no
  | .select label .missing, c => by
    rw [Statement.draw]
    exact .bind (.readable label) fun l => .bind (.append hP c .fork l) fun _ =>
      .bind (.addNode hP .join "end match") fun _ => .throw _
  | .select label (.arms l), c => by
    rw [Statement.draw]
    refine .bind (.readable label) fun t => .bind (.append hP c .fork t) fun fork =>
      .bind (.addNode hP .join "end match") fun join => .bind (drawArms_keeps hP l fork join) fun goesOn => ?_
    split
    · exact .pure (some join)
    · exact .pure none
  | .forever body, c => by
    rw [Statement.draw]
    exact .bind (.append hP c .join "loop") fun header => .bind (.addNode hP .join "end loop") fun exit =>
      .bind (.openLoop hP header exit) fun _ => .bind (body.keeps hP header) fun finish =>
        .bind (.repeatFrom hP finish header) fun _ => .bind (.closeLoop hP) fun _ => .pure (some exit)
  | .loop head label body, c => by
    rw [Statement.draw]
    exact .bind (.readable label) fun l => .bind (.append hP c .fork l) fun check =>
      .bind (.addNode hP .join head.labels.exit) fun exit =>
        .bind (.addEdge hP check exit head.labels.leave (by decide)) fun _ =>
          .bind (.openLoop hP check exit) fun _ =>
            .bind (.branch hP check head.labels.enter "Body" (by decide)) fun start =>
              .bind (body.keeps hP start) fun finish => .bind (.repeatFrom hP finish check) fun _ =>
                .bind (.closeLoop hP) fun _ => .pure (some exit)
  | .breakLoop, c => by
    rw [Statement.draw]
    exact .breakLoop hP c
  | .continueLoop, c => by
    rw [Statement.draw]
    exact .continueLoop hP c

theorem Block.keeps (hP : Lasting P) : ∀ (b : Block) (c : Node), Keeps P (b.draw c)
  | .missing, c => by
    rw [Block.draw]
    exact .throw _
  | .braces l, c => by
    rw [Block.draw]
    exact drawAll_keeps hP l c

theorem drawAll_keeps (hP : Lasting P) : ∀ (l : List Statement) (c : Node), Keeps P (drawAll c l)
  | [], c => by
    rw [drawAll]
    exact .pure _
  | s :: r, c => by
    rw [drawAll]
    refine .bind (s.keeps hP c) fun finish => ?_
    cases finish with
    | none => exact .pure none
    | some n => exact drawAll_keeps hP r n

theorem Branch.keeps (hP : Lasting P) : ∀ (b : Branch) (fork : Node) {kind : EdgeKind} (label : String),
    kind ≠ .link → Keeps P (b.draw fork kind label)
  | .block .missing, fork, kind, label, hk => by
    rw [Branch.draw]
    exact .throw _
  | .block (.braces []), fork, kind, label, hk => by
    rw [Branch.draw]
    exact .pure _
  | .block (.braces (s :: r)), fork, kind, label, hk => by
    rw [Branch.draw]
    refine .bind (.branch hP fork label label hk) fun start => .bind (s.keeps hP start) fun finish => ?_
    cases finish with
    | none => exact .pure none
    | some n => exact drawAll_keeps hP r n
  | .single s, fork, kind, label, hk => by
    rw [Branch.draw]
    exact .bind (.branch hP fork label label hk) (s.keeps hP)

theorem drawArms_keeps (hP : Lasting P) : ∀ (l : List Arm) (fork join : Node), Keeps P (drawArms fork join l)
  | [], fork, join => by
    rw [drawArms]
    exact .pure _
  | .arm pattern value :: r, fork, join => by
    rw [drawArms]
    refine .bind (.readable pattern) fun p =>
      .bind (.branch hP fork p ("Case " ++ p) (by decide)) fun entry =>
        .bind (value.keepsInside hP entry) fun finish => ?_
    cases finish with
    | none => exact drawArms_keeps hP r fork join
    | some n =>
      exact .bind (.follow hP n join) fun _ => .bind (drawArms_keeps hP r fork join) fun _ => .pure true

theorem Branch.keepsInside (hP : Lasting P) : ∀ (b : Branch) (c : Node), Keeps P (b.drawInside c)
  | .block .missing, c => by
    rw [Branch.drawInside]
    exact .throw _
  | .block (.braces l), c => by
    rw [Branch.drawInside]
    exact drawAll_keeps hP l c
  | .single s, c => by
    rw [Branch.drawInside]
    exact s.keeps hP c

end

end Braced

/-! ## Functions -/

/-- A function keeps a property that its entry and its end have, if its body does. -/
theorem Drawing.drawFunction_keeps {P : Draft → Prop} (hP : Lasting P) {f : Frame} {g : String}
    {name : Tree.Excerpt} {describe : String → Except DrawFault Value}
    {body : Node → Drawing (Option Node)} {a : Unit} {d : Draft} (ho : ∀ s v, P (f.opened g s v))
    (hb : ∀ c, Keeps P (body c)) (h : (drawFunction f name describe body).Yields (.empty g) a d) :
    P d := by
  obtain ⟨s, v, -, -, r, d₁, hbody, rfl⟩ := yields_drawFunction.1 h
  have h₁ : P d₁ := hb _ _ r d₁ hbody (ho s v)
  exact Keeps.followFrom hP (r.filter fun n => n.kind ≠ .exit) (f.finish g s v) d₁ () _
    (yields_followFrom.2 rfl) h₁

def Unlinked (name : String) (d : Draft) : Prop :=
  d.graph.name = name ∧ ∀ e ∈ d.graph.edges, e.kind ≠ .link

theorem name_put (g : Graph) (n : Node) : (g.put n).name = g.name :=
  congrArg Prod.fst (Graph.margin_put g n)

theorem name_addEdge (g : Graph) (e : Edge) : (g.addEdge e).name = g.name :=
  congrArg Prod.fst (Graph.margin_addEdge g e)

theorem lasting_unlinked (name : String) : Lasting (Unlinked name) where
  node := by
    rintro d kind label ⟨hn, he⟩
    have hedges : (d.withNode kind label).graph.edges = d.graph.edges := Graph.edges_put _ _
    exact ⟨(name_put _ _).trans hn, by rw [hedges]; exact he⟩
  edge := by
    rintro d u v kind label hk ⟨hn, he⟩
    refine ⟨(name_addEdge _ _).trans hn, fun e h => ?_⟩
    obtain rfl | ⟨h, -⟩ := Graph.mem_addEdge.1 h
    · exact hk
    · exact he e h
  loops := fun _ _ h => h

theorem unlinked_opened (f : Drawing.Frame) (g s : String) (v : Value) :
    Unlinked g (f.opened g s v) := by
  refine ⟨?_, by simp [Drawing.Frame.edges_opened]⟩
  exact (name_put _ _).trans (name_put _ _)

def Dialect.graphName : Dialect → String
  | .suites => "python_cfg"
  | .braces => "rust_cfg"

/-- What new nodes, new edges and other loops keep holds of the draft of a function. -/
theorem Lasting.of_draft {P : Draft → Prop} (hP : Lasting P) {dialect : Dialect} {code : Bytes}
    {settings : Option Value} {t : Tree} {d : Draft}
    (ho : ∀ (f : Drawing.Frame) s v, P (f.opened dialect.graphName s v))
    (h : draft dialect code settings t = (.ok (), d)) : P d := by
  cases dialect with
  | suites =>
    have hy : ((Suite.Function.ofTree code t).draw (describe settings)).Yields (.empty "python_cfg") ()
      d := h
    exact Drawing.drawFunction_keeps hP (ho _)
      (fun c => Suite.Body.keeps hP (Suite.Function.ofTree code t).body c) hy
  | braces =>
    have hy : ((Braced.Function.ofTree code t).draw (describe settings)).Yields (.empty "rust_cfg") ()
      d := h
    refine Drawing.drawFunction_keeps hP (ho _) (fun c => ?_) hy
    cases (Braced.Function.ofTree code t).body with
    | missing => exact .pure none
    | braces l => exact Braced.Block.keeps hP (.braces l) c

theorem unlinked_of_draft {dialect : Dialect} {code : Bytes} {settings : Option Value} {t : Tree}
    {d : Draft} (h : draft dialect code settings t = (.ok (), d)) :
    Unlinked dialect.graphName d :=
  (lasting_unlinked dialect.graphName).of_draft (fun f => unlinked_opened f _) h

end Workbench.Flow
