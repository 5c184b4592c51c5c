import Workbench.Proofs.Flow.Braced.Growth

/-!
# The nodes of a block

Which nodes are drawn for a statement, and whether the flow goes on behind it, can be told from the
statement alone. What stands behind a statement that does not go on is not drawn.
-/

namespace Workbench.Flow

/-! ## Rosters of graphs -/

def Node.face (n : Node) : NodeKind × String := (n.kind, n.label)

/-- What holds for each of the nodes, in the order in which they came in. -/
def Graph.traits {α : Type} (f : Node → α) (g : Graph) : List α :=
  (g.vertices.filterMap Vertex.node?).map f

def Graph.roster (g : Graph) : List (NodeKind × String) := g.traits Node.face

namespace Draft

theorem graph_withLoops (d : Draft) (l : List Loop) : (d.withLoops l).graph = d.graph := rfl

variable {d : Draft} {c u v t : Node} {kind : NodeKind} {label : Label} {edgeLabel : String}
  {edge : EdgeKind}

theorem traits_withNode {α : Type} (f : Node → α) (hd : d.graph.Numbered) :
    (d.withNode kind label).graph.traits f = d.graph.traits f ++ [f (d.fresh kind label)] := by
  unfold Graph.traits
  rw [vertices_withNode hd, List.filterMap_append, List.map_append]
  rfl

theorem traits_withEdge {α : Type} (f : Node → α) (hu : d.graph.Has u) (hv : d.graph.Has v) :
    (d.withEdge u v edge edgeLabel).graph.traits f = d.graph.traits f := by
  unfold Graph.traits
  rw [vertices_withEdge hu hv]

theorem traits_grown {α : Type} (f : Node → α) (hd : d.graph.Numbered) (hc : d.graph.Has c) :
    (d.grown c kind label edge edgeLabel).graph.traits f =
      d.graph.traits f ++ [f (d.fresh kind label)] := by
  unfold grown
  rw [traits_withEdge f ((has_withNode hd).2 (.inl hc)) (has_fresh_withNode hd), traits_withNode f hd]

theorem roster_withNode (hd : d.graph.Numbered) :
    (d.withNode kind label).graph.roster = d.graph.roster ++ [(kind, label.text)] :=
  traits_withNode Node.face hd

theorem roster_withEdge (hu : d.graph.Has u) (hv : d.graph.Has v) :
    (d.withEdge u v edge edgeLabel).graph.roster = d.graph.roster :=
  traits_withEdge Node.face hu hv

theorem roster_grown (hd : d.graph.Numbered) (hc : d.graph.Has c) :
    (d.grown c kind label edge edgeLabel).graph.roster = d.graph.roster ++ [(kind, label.text)] :=
  traits_grown Node.face hd hc

theorem roster_joined {ends : List Node} (he : ∀ n ∈ ends, d.graph.Has n) (ht : d.graph.Has t) :
    (d.joined ends t).graph.roster = d.graph.roster := by
  induction ends generalizing d with
  | nil => rfl
  | cons n ends ih =>
    have hn := he n List.mem_cons_self
    exact (ih (fun k hk => (has_withEdge hn ht).2 (he k (List.mem_cons_of_mem n hk)))
      ((has_withEdge hn ht).2 ht)).trans (roster_withEdge hn ht)

end Draft

namespace Braced

open Drawing

/-! ## Rosters of statements -/

def checkFace : NodeKind × String := (.virtual, "Check '?'")

def labelText (label : Tree.Excerpt) : String := label.toOption.getD ""

@[simp] theorem labelText_ok (s : String) : labelText (.ok s) = s := rfl

mutual

def Statement.goesOn : Statement → Bool
  | .checked _ inner => inner.goesOn
  | .plain _ => true
  | .call _ => true
  | .hollow => false
  | .ret => false
  | .panic => false
  | .cond _ consequence alternative => consequence.goesOn || sideGoesOn alternative
  | .select _ .missing => false
  | .select _ (.arms l) => anyGoesOn l
  | .forever _ => true
  | .loop _ _ _ => true
  | .breakLoop => false
  | .continueLoop => false

def allGoOn : List Statement → Bool
  | [] => true
  | s :: r => s.goesOn && allGoOn r

def Branch.goesOn : Branch → Bool
  | .block .missing => false
  | .block (.braces l) => allGoOn l
  | .single s => s.goesOn

def sideGoesOn : Option Branch → Bool
  | none => true
  | some b => b.goesOn

def anyGoesOn : List Arm → Bool
  | [] => false
  | .arm _ value :: r => value.goesOn || anyGoesOn r

end

mutual

def Statement.roster : Statement → List (NodeKind × String)
  | .checked marks inner => List.replicate marks.length checkFace ++ inner.roster
  | .plain label => [(.block, labelText label)]
  | .call label => [(.call, labelText label)]
  | .hollow => []
  | .ret => [(.exit, "return")]
  | .panic => [(.exit, "panic!")]
  | .cond label consequence alternative =>
    (.fork, labelText label) :: (.block, "Then") :: consequence.roster "True" ++ sideRoster alternative ++
      if consequence.goesOn || sideGoesOn alternative then [(.join, "fi")] else []
  | .select _ .missing => []
  | .select label (.arms l) => (.fork, labelText label) :: (.join, "end match") :: armsRoster l
  | .forever body => (.join, "loop") :: (.join, "end loop") :: body.roster
  | .loop head label body =>
    (.fork, labelText label) :: (.join, head.labels.exit) :: (.virtual, "Body") :: body.roster
  | .breakLoop => []
  | .continueLoop => []

def Block.roster : Block → List (NodeKind × String)
  | .missing => []
  | .braces l => blockRoster l

def blockRoster : List Statement → List (NodeKind × String)
  | [] => []
  | s :: r => s.roster ++ if s.goesOn then blockRoster r else []

def Branch.roster (label : String) : Branch → List (NodeKind × String)
  | .block .missing => []
  | .block (.braces []) => []
  | .block (.braces (s :: r)) =>
    (.virtual, label) :: (s.roster ++ if s.goesOn then blockRoster r else [])
  | .single s => (.virtual, label) :: s.roster

def sideRoster : Option Branch → List (NodeKind × String)
  | none => []
  | some b => b.roster "False"

def armsRoster : List Arm → List (NodeKind × String)
  | [] => []
  | .arm pattern value :: r => (.virtual, "Case " ++ labelText pattern) :: value.rosterInside ++ armsRoster r

def Branch.rosterInside : Branch → List (NodeKind × String)
  | .block .missing => []
  | .block (.braces l) => blockRoster l
  | .single s => s.roster

end

/-! ## What is drawn is the roster -/

/-- Wherever the flow stands, the step adds some nodes, and the flow goes on behind it or not. -/
def Records (x : Node) (step : Node → Drawing (Option Node)) (nodes : List (NodeKind × String))
    (goesOn : Bool) : Prop :=
  ∀ c d r d', At x d c → (step c).Yields d r d' →
    d'.graph.roster = d.graph.roster ++ nodes ∧ r.isSome = goesOn

section
variable {x c fork : Node} {d d' : Draft} {label : Tree.Excerpt} {l l' : List (NodeKind × String)}
  {g g' : Bool} {r yes no : Option Node}

theorem records_append (kind : NodeKind) (label : Tree.Excerpt) :
    Records x (fun c => do return some (← append c kind (← readable label))) [(kind, labelText label)] true := by
  intro c d r d' hc h
  simp only [yields_bind, yields_readable, yields_append, yields_pure] at h
  obtain ⟨s, _, ⟨rfl, rfl⟩, _, _, ⟨rfl, rfl⟩, rfl, rfl⟩ := h
  exact ⟨Draft.roster_grown hc.sound.numbered hc.footing.has, rfl⟩

theorem records_ret : Records x (fun c => Statement.draw c .ret) [(.exit, "return")] false := by
  intro c d r d' hc h
  simp only [Statement.draw, yields_bind, yields_append, yields_functionExit, yields_follow,
    yields_pure] at h
  obtain ⟨_, _, ⟨rfl, rfl⟩, t, _, ⟨ht, rfl⟩, _, _, rfl, rfl, rfl⟩ := h
  obtain rfl : x = t := Option.some.inj (hc.sound.exit.symm.trans ht)
  have hd := hc.sound.numbered
  rw [Draft.roster_withEdge ((Draft.has_grown hd hc.footing.has).2 (.inr rfl))
    ((Draft.has_grown hd hc.footing.has).2 (.inl hc.sound.has_exit)), Draft.roster_grown hd hc.footing.has]
  exact ⟨rfl, rfl⟩

theorem records_panic : Records x (fun c => Statement.draw c .panic) [(.exit, "panic!")] false := by
  intro c d r d' hc h
  simp only [Statement.draw, yields_bind, yields_append, yields_pure] at h
  obtain ⟨_, _, ⟨rfl, rfl⟩, rfl, rfl⟩ := h
  exact ⟨Draft.roster_grown hc.sound.numbered hc.footing.has, rfl⟩

theorem roster_jumped (hc : At x d c) {place : Loop → Node}
    (hp : ∀ loop ∈ d.loops, d.graph.Has (place loop)) (label : String) :
    (d.jumped c place label).graph.roster = d.graph.roster := by
  unfold Draft.jumped
  split
  next => rfl
  next loop rest hl => exact Draft.roster_withEdge hc.footing.has (hp loop (hl ▸ List.mem_cons_self))

theorem records_breakLoop : Records x (fun c => Statement.draw c .breakLoop) [] false := by
  intro c d r d' hc h
  simp only [Statement.draw, yields_breakLoop] at h
  obtain ⟨rfl, rfl⟩ := h
  rw [roster_jumped hc fun loop hl => (hc.sound.loops loop hl).has_exit, List.append_nil]
  exact ⟨rfl, rfl⟩

theorem records_continueLoop : Records x (fun c => Statement.draw c .continueLoop) [] false := by
  intro c d r d' hc h
  simp only [Statement.draw, yields_continueLoop] at h
  obtain ⟨rfl, rfl⟩ := h
  rw [roster_jumped hc fun loop hl => (hc.sound.loops loop hl).has_header, List.append_nil]
  exact ⟨rfl, rfl⟩

theorem traits_drawChecks {α : Type} {f : Node → α} {trait : Tree → α}
    (hf : ∀ d mark, f (Draft.fresh d .virtual (checkLabel mark)) = trait mark) {marks : List Tree}
    {n : Node} (hc : At x d c) (h : (drawChecks c marks).Yields d n d') :
    d'.graph.traits f = d.graph.traits f ++ marks.map trait := by
  induction marks generalizing c d with
  | nil =>
    simp only [drawChecks, yields_pure] at h
    obtain ⟨-, rfl⟩ := h
    exact (List.append_nil _).symm
  | cons mark marks ih =>
    have hd := hc.sound.numbered
    have hcheck := (drawn_withCheck hc mark).finish _ rfl
    rw [ih hcheck.1 ((yields_drawChecks_cons hc.sound.exit).1 h), withCheck,
      Draft.traits_withEdge f ((Draft.has_grown hd hc.footing.has).2 (.inr rfl))
        ((Draft.has_grown hd hc.footing.has).2 (.inl hc.sound.has_exit)),
      Draft.traits_grown f hd hc.footing.has, List.append_assoc, hf]
    rfl

theorem roster_drawChecks {marks : List Tree} {n : Node} (hc : At x d c)
    (h : (drawChecks c marks).Yields d n d') :
    d'.graph.roster = d.graph.roster ++ List.replicate marks.length checkFace := by
  rw [← List.map_const']
  exact traits_drawChecks (fun _ _ => rfl) hc h

theorem records_checked {marks : List Tree} {s : Statement} (hs : Records x (fun c => s.draw c) l g) :
    Records x (fun c => Statement.draw c (.checked marks s))
      (List.replicate marks.length checkFace ++ l) g := by
  intro c d r d' hc h
  obtain ⟨n, d₁, h₁, h⟩ := yields_checked.1 h
  obtain ⟨hroster, hr⟩ := hs n d₁ r d' ((drawChecks_drawn marks hc h₁).finish n rfl).1 h
  rw [hroster, roster_drawChecks hc h₁, List.append_assoc]
  exact ⟨rfl, hr⟩

/-! ## Blocks and sides -/

theorem records_nil : Records x (fun c => drawAll c []) [] true := by
  intro c d r d' _ h
  simp only [drawAll, yields_pure] at h
  obtain ⟨rfl, rfl⟩ := h
  exact ⟨(List.append_nil _).symm, rfl⟩

theorem records_cons {s : Statement} {rest : List Statement} (hs : Records x (fun c => s.draw c) l g)
    (hr : Records x (fun c => drawAll c rest) l' g') :
    Records x (fun c => drawAll c (s :: rest)) (l ++ if g then l' else []) (g && g') := by
  intro c d r d' hc h
  simp only [drawAll, yields_bind] at h
  obtain ⟨next, d₁, h₁, h⟩ := h
  obtain ⟨hroster, hnext⟩ := hs c d next d₁ hc h₁
  cases next with
  | none =>
    obtain ⟨rfl, rfl⟩ := yields_pure.1 h
    rw [hroster, ← hnext]
    simp
  | some n =>
    obtain ⟨hroster', hr⟩ := hr n d₁ r d' ((s.lays x c d _ d₁ hc h₁).finish n rfl).1 h
    rw [hroster', hroster, hr, ← hnext]
    simp

theorem records_branch {step : Node → Drawing (Option Node)} {kind : EdgeKind} (hk : kind ≠ .jump)
    (edgeLabel label : String) (hs : Records x step l g) :
    Records x (fun fork => do step (← branch fork kind edgeLabel label)) ((.virtual, label) :: l) g := by
  intro fork d r d' hf h
  simp only [yields_bind, yields_branch] at h
  obtain ⟨_, _, ⟨rfl, rfl⟩, h⟩ := h
  obtain ⟨hroster, hr⟩ := hs _ _ r d' ((drawn_branch hf hk edgeLabel label).finish _ rfl).1 h
  rw [hroster, Draft.roster_grown hf.sound.numbered hf.footing.has, List.append_assoc]
  exact ⟨rfl, hr⟩

theorem roster_joinSides (hd : d.graph.Numbered) (hyes : ∀ n, yes = some n → d.graph.Has n)
    (hno : ∀ n, no = some n → d.graph.Has n) (h : (joinSides fork yes no).Yields d r d') :
    d'.graph.roster = d.graph.roster ++ (if yes.isSome || no.isSome then [(.join, "fi")] else []) ∧
      r.isSome = (yes.isSome || no.isSome) := by
  rw [yields_joinSides] at h
  split at h
  next hgo =>
    obtain ⟨rfl, rfl⟩ := h
    rw [hgo, if_pos rfl]
    refine ⟨?_, rfl⟩
    have hkept : ∀ n, d.graph.Has n → (d.withNode .join "fi").graph.Has n :=
      fun n hn => (Draft.has_withNode hd).2 (.inl hn)
    have hjoin : (d.withNode .join "fi").graph.Has (d.fresh .join "fi") := Draft.has_fresh_withNode hd
    have hends : ∀ n ∈ yes.toList, (d.withNode .join "fi").graph.Has n :=
      fun n hn => hkept n (hyes n (Option.mem_toList.1 hn))
    have hroster := (Draft.roster_joined hends hjoin).trans (Draft.roster_withNode hd)
    cases no with
    | none => exact hroster
    | some n =>
      exact (Draft.roster_withEdge ((Draft.has_joined hends hjoin).2 (hkept n (hno n rfl)))
        ((Draft.has_joined hends hjoin).2 hjoin)).trans hroster
  next hgo =>
    obtain ⟨rfl, rfl⟩ := h
    rw [Bool.not_eq_true] at hgo
    simp [hgo]

theorem records_cond {consequence : Branch} {alternative : Option Branch}
    (hy : Records x (fun fork => consequence.draw fork .condTrue "True") l g)
    (hn : Records x (fun fork => drawSide fork alternative) l' g') :
    Records x (fun c => Statement.draw c (.cond label consequence alternative))
      ((.fork, labelText label) :: (.block, "Then") :: l ++ l' ++ if g || g' then [(.join, "fi")] else [])
      (g || g') := by
  intro c d r d' hc h
  obtain ⟨s, yes, d₁, no, d₂, rfl, h₁, h₂, h⟩ := yields_cond.1 h
  have hf := ((drawn_withCond hc s).finish _ rfl).1
  have hyes := consequence.lays x _ _ (by decide) _ _ _ _ hf h₁
  have hf₁ := hf.run hf hyes.run hyes.loops
  have hno := lays_side (fun b _ => b.lays x) _ _ _ _ hf₁ h₂
  have hf₂ := hf₁.run hf₁ hno.run hno.loops
  have hcond : (withCond d c s).graph.roster = d.graph.roster ++ [(.fork, s), (.block, "Then")] := by
    have hd := hc.sound.numbered
    rw [withCond, Draft.roster_withNode (Draft.numbered_grown hd hc.footing.has),
      Draft.roster_grown hd hc.footing.has, List.append_assoc]
    rfl
  obtain ⟨hroster₁, rfl⟩ := hy _ _ _ _ hf h₁
  obtain ⟨hroster₂, rfl⟩ := hn _ _ _ _ hf₁ h₂
  obtain ⟨hroster, hr⟩ := roster_joinSides hf₂.sound.numbered
    (fun n hn => ((hyes.finish n hn).1.run hf₁ hno.run hno.loops).footing.has)
    (fun n hn => (hno.finish n hn).1.footing.has) h
  rw [hroster, hroster₂, hroster₁, hcond]
  exact ⟨by simp, hr⟩

theorem records_noSide : Records x (fun fork => drawSide fork none) [] true := by
  intro fork d r d' _ h
  obtain ⟨rfl, rfl⟩ := yields_pure.1 h
  exact ⟨(List.append_nil _).symm, rfl⟩

/-! ## Choices and loops -/

def RecordsArms (x : Node) (l : List Arm) (nodes : List (NodeKind × String)) (any : Bool) : Prop :=
  ∀ fork join d a d', Choosing x fork join d → (drawArms fork join l).Yields d a d' →
    d'.graph.roster = d.graph.roster ++ nodes ∧ a = any

theorem recordsArms_nil : RecordsArms x [] [] false := by
  intro fork join d a d' _ h
  simp only [drawArms, yields_pure] at h
  obtain ⟨rfl, rfl⟩ := h
  exact ⟨(List.append_nil _).symm, rfl⟩

theorem recordsArms_cons {pattern : Tree.Excerpt} {value : Branch} {rest : List Arm}
    (hv : Records x (fun c => value.drawInside c) l g) (hr : RecordsArms x rest l' g') :
    RecordsArms x (.arm pattern value :: rest)
      ((.virtual, "Case " ++ labelText pattern) :: l ++ l') (g || g') := by
  intro fork join d a d' hc h
  obtain ⟨p, finish, d₁, any, rfl, h₁, h₂, rfl⟩ := yields_arms_cons.1 h
  obtain ⟨harm, hrun, hloops⟩ := hc.arm (value.laysInside x) h₁
  have hstart := ((drawn_branch (k := .condTrue) hc.atFork (by decide) p ("Case " ++ p)).finish _ rfl).1
  obtain ⟨hroster₁, rfl⟩ := hv _ _ _ _ hstart h₁
  obtain ⟨hroster, rfl⟩ := hr _ _ _ _ _ (hc.run hrun hloops) h₂
  rw [hroster, Draft.roster_joined (fun n hn => (harm.finish n (Option.mem_toList.1 hn)).1.footing.has)
    (hc.run harm.run harm.loops).atJoin.footing.has, hroster₁,
    Draft.roster_grown hc.atFork.sound.numbered hc.atFork.footing.has]
  exact ⟨by simp, rfl⟩

theorem records_select {l : List Arm} {nodes : List (NodeKind × String)} (hl : RecordsArms x l nodes g) :
    Records x (fun c => Statement.draw c (.select label (.arms l)))
      ((.fork, labelText label) :: (.join, "end match") :: nodes) g := by
  intro c d r d' hc h
  obtain ⟨s, any, rfl, harms, rfl⟩ := yields_select.1 h
  obtain ⟨hroster, rfl⟩ := hl _ _ _ _ _ (choosing_withChoice hc s) harms
  have hd := hc.sound.numbered
  rw [hroster, withChoice, Draft.roster_withNode (Draft.numbered_grown hd hc.footing.has),
    Draft.roster_grown hd hc.footing.has]
  refine ⟨by simp, ?_⟩
  cases any <;> rfl

theorem roster_rounds {loop : Loop} {start : Node} {finish : Option Node} {d₀ d₁ d₂ : Draft} {a : Unit}
    {body : List Statement} (ho : Opened x c d loop start d₀) (hb : Records x (fun c => drawAll c body) l g)
    (h₁ : (drawAll start body).Yields d₀ finish d₁)
    (h₂ : (repeatFrom finish loop.header).Yields d₁ a d₂) :
    (d₂.withLoops d₂.loops.tail).graph.roster = d₀.graph.roster ++ l := by
  have hopen := ho.stands.sound.loops loop (ho.loops ▸ List.mem_cons_self)
  have hdrawn := drawAll_lays x body _ _ _ _ ho.stands h₁
  have hroster := (hb _ _ _ _ ho.stands h₁).1
  obtain ⟨-, rfl⟩ | ⟨n, hn, rfl⟩ := yields_repeatFrom h₂
  · exact hroster
  · exact (Draft.roster_withEdge (hdrawn.finish n hn).1.footing.has
      ((ho.stands.growsOf hdrawn.run).has hopen.has_header)).trans hroster

theorem roster_withEndless (hc : At x d c) :
    (withEndless d c).graph.roster = d.graph.roster ++ [(.join, "loop"), (.join, "end loop")] := by
  have hd := hc.sound.numbered
  rw [withEndless, Draft.graph_withLoops, Draft.roster_withNode (Draft.numbered_grown hd hc.footing.has),
    Draft.roster_grown hd hc.footing.has, List.append_assoc]
  rfl

theorem records_forever {body : List Statement} (hb : Records x (fun c => drawAll c body) l g) :
    Records x (fun c => Statement.draw c (.forever (.braces body)))
      ((.join, "loop") :: (.join, "end loop") :: l) true := by
  intro c d r d' hc h
  obtain ⟨finish, d₁, d₂, h₁, h₂, rfl, rfl⟩ := yields_forever.1 h
  simp only [Block.draw] at h₁
  rw [roster_rounds (opened_withEndless hc) hb h₁ h₂, roster_withEndless hc, List.append_assoc]
  exact ⟨rfl, rfl⟩

theorem roster_withRound (hc : At x d c) (head : LoopHead) (s : String) :
    (withRound d c head s).graph.roster =
      d.graph.roster ++ [(.fork, s), (.join, head.labels.exit), (.virtual, "Body")] := by
  have hpc := hc.grown .fork s .seq "" (by decide)
  have hexit := hpc.stands.sound.withJoin head.labels.exit
  have hd₂ := hexit.stands.sound.numbered
  have hheader := (hpc.stands.withNode .join head.labels.exit).footing.has
  have hways : (withExit d c head s).graph.roster =
      d.graph.roster ++ [(.fork, s), (.join, head.labels.exit)] := by
    rw [withExit, checkedLoop, Draft.roster_withEdge hheader hexit.stands.footing.has,
      Draft.roster_withNode hpc.stands.sound.numbered,
      Draft.roster_grown hc.sound.numbered hc.footing.has, List.append_assoc]
    rfl
  have hnumbered : (withChecked d c head s).graph.Numbered := by
    rw [withChecked, Draft.graph_withLoops]
    exact Draft.numbered_withEdge hd₂ hheader hexit.stands.footing.has
  have hhas : (withChecked d c head s).graph.Has (checkedLoop d c head s).header := by
    rw [withChecked, Draft.graph_withLoops]
    exact (Draft.has_withEdge hheader hexit.stands.footing.has).2 hheader
  rw [withRound, Draft.roster_grown hnumbered hhas, withChecked, Draft.graph_withLoops, hways,
    List.append_assoc]
  rfl

theorem records_loop {head : LoopHead} {body : List Statement}
    (hb : Records x (fun c => drawAll c body) l g) :
    Records x (fun c => Statement.draw c (.loop head label (.braces body)))
      ((.fork, labelText label) :: (.join, head.labels.exit) :: (.virtual, "Body") :: l) true := by
  intro c d r d' hc h
  obtain ⟨s, finish, d₁, d₂, rfl, h₁, h₂, rfl, rfl⟩ := yields_loop.1 h
  simp only [Block.draw] at h₁
  rw [roster_rounds (opened_withRound hc head s) hb h₁ h₂, roster_withRound hc head s, List.append_assoc]
  exact ⟨rfl, rfl⟩

end

/-! ## All statements -/

theorem records_throw {x : Node} {e : DrawFault} {l : List (NodeKind × String)} {g : Bool} :
    Records x (fun _ => throw e) l g :=
  fun _ _ _ _ _ h => absurd h not_yields_throw

-- by recursion on the syntax, with one lemma for each kind of statement
mutual

theorem Statement.records (x : Node) : ∀ s : Statement, Records x (fun c => s.draw c) s.roster s.goesOn
  | .checked _ inner => by
    simp only [Statement.roster, Statement.goesOn]
    exact records_checked (inner.records x)
  | .plain label => by
    simp only [Statement.draw, Statement.roster, Statement.goesOn]
    exact records_append .block label
  | .call label => by
    simp only [Statement.draw, Statement.roster, Statement.goesOn]
    exact records_append .call label
  | .hollow => by
    simp only [Statement.draw]
    exact records_throw
  | .ret => by
    simp only [Statement.roster, Statement.goesOn]
    exact records_ret
  | .panic => by
    simp only [Statement.roster, Statement.goesOn]
    exact records_panic
  | .cond _ consequence alternative => by
    simp only [Statement.roster, Statement.goesOn]
    exact records_cond (consequence.records x .condTrue "True" (by decide)) (drawSide_records x alternative)
  | .select _ .missing => by
    intro c d r d' _ h
    simp only [Statement.draw, yields_bind, not_yields_throw, and_false, exists_false] at h
  | .select _ (.arms l) => by
    simp only [Statement.roster, Statement.goesOn]
    exact records_select (drawArms_records x l)
  | .forever .missing => by
    intro c d r d' _ h
    simp only [Statement.draw, Block.draw, yields_bind, not_yields_throw, and_false, false_and,
      exists_false] at h
  | .forever (.braces l) => by
    simp only [Statement.roster, Statement.goesOn, Block.roster]
    exact records_forever (drawAll_records x l)
  | .loop _ _ .missing => by
    intro c d r d' _ h
    simp only [Statement.draw, Block.draw, yields_bind, not_yields_throw, and_false, false_and,
      exists_false] at h
  | .loop _ _ (.braces l) => by
    simp only [Statement.roster, Statement.goesOn, Block.roster]
    exact records_loop (drawAll_records x l)
  | .breakLoop => by
    simp only [Statement.roster, Statement.goesOn]
    exact records_breakLoop
  | .continueLoop => by
    simp only [Statement.roster, Statement.goesOn]
    exact records_continueLoop

theorem drawAll_records (x : Node) : ∀ l : List Statement,
    Records x (fun c => drawAll c l) (blockRoster l) (allGoOn l)
  | [] => by
    simp only [blockRoster, allGoOn]
    exact records_nil
  | s :: r => by
    simp only [blockRoster, allGoOn]
    exact records_cons (s.records x) (drawAll_records x r)

theorem Branch.records (x : Node) : ∀ (b : Branch) (kind : EdgeKind) (label : String), kind ≠ .jump →
    Records x (fun fork => b.draw fork kind label) (b.roster label) b.goesOn
  | .block .missing, kind, label, _ => by
    simp only [Branch.draw]
    exact records_throw
  | .block (.braces []), kind, label, _ => by
    simp only [Branch.draw, Branch.roster, Branch.goesOn, allGoOn]
    exact records_noSide
  | .block (.braces (s :: r)), kind, label, hk => by
    have hall := records_cons (s.records x) (drawAll_records x r)
    simp only [drawAll] at hall
    simp only [Branch.draw, Branch.roster, Branch.goesOn, allGoOn]
    exact records_branch hk label label hall
  | .single s, kind, label, hk => by
    simp only [Branch.draw, Branch.roster, Branch.goesOn]
    exact records_branch hk label label (s.records x)

theorem drawSide_records (x : Node) : ∀ alternative : Option Branch,
    Records x (fun fork => drawSide fork alternative) (sideRoster alternative) (sideGoesOn alternative)
  | none => by
    simp only [sideRoster, sideGoesOn]
    exact records_noSide
  | some b => by
    simp only [sideRoster, sideGoesOn]
    exact b.records x .condFalse "False" (by decide)

theorem drawArms_records (x : Node) : ∀ l : List Arm, RecordsArms x l (armsRoster l) (anyGoesOn l)
  | [] => by
    simp only [armsRoster, anyGoesOn]
    exact recordsArms_nil
  | .arm pattern value :: r => by
    simp only [armsRoster, anyGoesOn]
    exact recordsArms_cons (value.recordsInside x) (drawArms_records x r)

theorem Branch.recordsInside (x : Node) : ∀ b : Branch,
    Records x (fun c => b.drawInside c) b.rosterInside b.goesOn
  | .block .missing => by
    simp only [Branch.drawInside]
    exact records_throw
  | .block (.braces l) => by
    simp only [Branch.drawInside, Branch.rosterInside, Branch.goesOn]
    exact drawAll_records x l
  | .single s => by
    simp only [Branch.drawInside, Branch.rosterInside, Branch.goesOn]
    exact s.records x

end

end Braced

end Workbench.Flow
