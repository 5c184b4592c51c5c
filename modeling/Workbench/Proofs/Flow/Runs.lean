import Workbench.Proofs.Flow.Depiction
import Workbench.Proofs.Flow.Function

/-!
# Runs of a function

Where the body of a function depicts a behaviour, the walks from the entry to the end of the
function are the complete runs of the body.
-/

namespace Workbench.Flow

/-! ## Steps -/

/-- Wherever the flow stands, the step can be taken, and what it draws depicts the behaviour. -/
def Shows (x : Node) (b : Behaviour) (step : Node → Drawing (Option Node)) : Prop :=
  ∀ c d, Grounded x d → d.graph.Has c → c.kind ≠ .exit →
    ∃ r d', (step c).Yields d r d' ∧ Depicts x c b d r.toList d'

theorem Draft.log_fresh (d : Draft) (kind : NodeKind) (label : String) :
    (d.fresh kind label).log = if kind.logged then [label] else [] := rfl

theorem Drawing.yields_repeatFrom_iff {finish : Option Node} {v : Node} {a : Unit} {d d' : Draft} :
    (Drawing.repeatFrom finish v).Yields d a d' ↔
      d' = d.withEdges (strokesTo v .jump "repeat" finish.toList) := by
  cases finish with
  | none => simp [Drawing.repeatFrom, Draft.withEdges, strokesTo, eq_comm]
  | some u => simp [Drawing.repeatFrom, Draft.withEdges, strokesTo]

def Behaviour.logs (label : Tree.Excerpt) : Option Behaviour :=
  label.toOption.map fun s => .ends [s] .next

section
variable {x c : Node} {d : Draft} {a b : Behaviour} {step step' : Node → Drawing (Option Node)}
  {kind : NodeKind} {label : String} {text : Tree.Excerpt}

theorem eq_ok_of_toOption {s : String} (h : text.toOption = some s) : text = .ok s := by
  cases text with
  | error f => cases h
  | ok r =>
    cases h
    rfl

theorem Behaviour.logs_eq_some (h : Behaviour.logs text = some b) :
    ∃ s, text = .ok s ∧ b = .ends [s] .next := by
  obtain ⟨s, hs, hb⟩ := Option.map_eq_some_iff.1 h
  exact ⟨s, eq_ok_of_toOption hs, hb.symm⟩

theorem shows_pure : Shows x (.ends [] .next) fun c => pure (some c) :=
  fun c d hg hc hk => ⟨some c, d, Drawing.yields_pure.2 ⟨rfl, rfl⟩, .refl hg hc hk⟩

/-- The second step is taken where the first one goes on, if it does. -/
theorem Shows.seq (h : Shows x a step) (h' : Shows x b step') :
    Shows x (a.seq b) (fun c => do
      match ← step c with
      | none => return none
      | some n => step' n) := by
  intro c d hg hc hk
  obtain ⟨r, d₁, hy, hd⟩ := h c d hg hc hk
  cases r with
  | none => exact ⟨none, d₁, Drawing.yields_bind.2 ⟨none, d₁, hy, Drawing.yields_pure.2 ⟨rfl, rfl⟩⟩,
      hd.seq_of_nil b⟩
  | some n =>
    obtain ⟨hn, hkn⟩ := hd.stands n (List.mem_singleton_self n)
    obtain ⟨r, d', hy', hd'⟩ := h' n d₁ hd.grounded hn hkn
    exact ⟨r, d', Drawing.yields_bind.2 ⟨some n, d₁, hy, hy'⟩, hd.seq hg hd'⟩

/-- A step that is taken behind a new node, which is logged if it is of a logged kind. -/
theorem Shows.behind (h : Shows x b step) (hg : Grounded x d) (hc : d.graph.Has c)
    (kind : NodeKind) (label : String) (edge : EdgeKind) (edgeLabel : String) (hk : kind ≠ .exit) :
    ∃ r d',
      (step (d.fresh kind label)).Yields (d.grown c kind label edge edgeLabel) r d' ∧
      Depicts x c (.seq (.ends (if kind.logged then [label] else []) .next) b) d r.toList d' := by
  have hn : (d.grown c kind label edge edgeLabel).graph.Has (d.fresh kind label) :=
    (Draft.has_grown hg.numbered hc).2 (.inr rfl)
  obtain ⟨r, d', hy, hd⟩ := h _ _ (hg.grown hc) hn hk
  exact ⟨r, d', hy, (Depicts.append hg hc kind label edge edgeLabel hk).seq hg hd⟩

theorem Shows.append (h : Shows x b step) (hk : kind ≠ .exit) :
    Shows x (.seq (.ends (if kind.logged then [label] else []) .next) b)
      (fun c => do step (← Drawing.append c kind label)) := by
  intro c d hg hc _
  obtain ⟨r, d', hy, hd⟩ := h.behind hg hc kind label .seq "" hk
  exact ⟨r, d', Drawing.yields_bind.2 ⟨_, _, Drawing.yields_append.2 ⟨rfl, rfl⟩, hy⟩, hd⟩

theorem Shows.branch (h : Shows x b step) (edge : EdgeKind) (edgeLabel label : String) :
    Shows x b (fun c => do step (← Drawing.branch c edge edgeLabel label)) := by
  intro c d hg hc _
  obtain ⟨r, d', hy, hd⟩ := h.behind hg hc .virtual label edge edgeLabel (by decide)
  rw [show (if NodeKind.virtual.logged then [label] else []) = [] from rfl,
    Behaviour.seq_ends_nil] at hd
  exact ⟨r, d', Drawing.yields_bind.2 ⟨_, _, Drawing.yields_branch.2 ⟨rfl, rfl⟩, hy⟩, hd⟩

theorem shows_append (hk : kind ≠ .exit) :
    Shows x (.ends (if kind.logged then [label] else []) .next)
      (fun c => do return some (← Drawing.append c kind label)) := by
  rw [← Behaviour.seq_nil_ends (.ends (if kind.logged then [label] else []) .next)]
  exact shows_pure.append hk

/-- A loop: behind the current node its header and its exit, and between them a round that leads
back to the header. The edges from the header to the exit, drawn before or after the round, are
there if the loop has a check. -/
theorem Shows.loop {checked : Prop} {pre post : Node → Node → Drawing Unit} (h : Shows x b step)
    (hk : kind ≠ .exit) (label exitLabel : String) (before after : List (EdgeKind × String))
    (hpre : ∀ n e d, (pre n e).Yields d () (d.withEdges (strokesOf n e before)))
    (hpost : ∀ n e d, (post n e).Yields d () (d.withEdges (strokesOf n e after)))
    (hchecked : checked ↔ before ++ after ≠ []) :
    Shows x (.Rounds (if kind.logged then [label] else []) checked b) (fun c => do
      let header ← Drawing.append c kind label
      let exit ← Drawing.addNode .join exitLabel
      pre header exit
      Drawing.openLoop header exit
      Drawing.repeatFrom (← step header) header
      post header exit
      Drawing.closeLoop
      return some exit) := by
  intro c d hg hc _
  obtain ⟨header, hheader⟩ : ∃ n, n = d.fresh kind label := ⟨_, rfl⟩
  obtain ⟨d₁, hd₁⟩ : ∃ d₁, d₁ = d.grown c kind label .seq "" := ⟨_, rfl⟩
  obtain ⟨exit, hexit⟩ : ∃ n, n = d₁.fresh .join exitLabel := ⟨_, rfl⟩
  obtain ⟨d₂, hd₂⟩ : ∃ d₂, d₂ = (d₁.withNode .join exitLabel).withEdges
    (strokesOf header exit before) := ⟨_, rfl⟩
  have hlooped : Looped x c header exit checked d (d₂.withLoops (⟨header, exit⟩ :: d.loops)) := by
    rw [hd₂]
    refine .opened hg hc hk hheader hd₁ hexit _ fun s hs => ?_
    obtain ⟨p, hp, rfl⟩ := mem_strokesOf.1 hs
    exact ⟨hchecked.2 (List.append_ne_nil_of_left_ne_nil (List.ne_nil_of_mem hp) after), rfl, rfl⟩
  have hloops : d₂.loops = d.loops := by
    rw [hd₂, Draft.loops_withEdges, Draft.loops_withNode, hd₁, Draft.loops_grown]
  have hkind : header.kind ≠ .exit := by rwa [hheader]
  obtain ⟨finish, d₃, hy, hround⟩ := h header _ hlooped.grounded hlooped.has_header hkind
  rw [← Draft.log_fresh d, ← hheader]
  refine ⟨some exit, _, ?_, Depicts.loop hg hc hlooped hround
    (strokesTo header .jump "repeat" finish.toList ++ strokesOf header exit after) ?_ ?_ ?_⟩
  · simp only [Drawing.yields_bind, Drawing.yields_append, Drawing.yields_addNode,
      Drawing.yields_openLoop, Drawing.yields_repeatFrom_iff, Drawing.yields_closeLoop,
      Drawing.yields_pure, Draft.withEdges_append]
    exact ⟨header, d₁, ⟨hheader, hd₁⟩, exit, _, ⟨hexit, rfl⟩, ⟨⟩, d₂, hd₂ ▸ hpre _ _ _, ⟨⟩, _,
      by rw [hloops], finish, d₃, hy, ⟨⟩, _, rfl, ⟨⟩, _, hpost _ _ _, ⟨⟩, _, rfl, rfl, rfl⟩
  · refine List.forall_mem_append.2 ⟨fun s hs => .inl ?_, fun s hs => .inr ?_⟩
    · obtain ⟨n, hn, rfl⟩ := mem_strokesTo.1 hs
      exact ⟨hn, rfl⟩
    · obtain ⟨p, hp, rfl⟩ := mem_strokesOf.1 hs
      exact ⟨hchecked.2 (List.append_ne_nil_of_right_ne_nil before (List.ne_nil_of_mem hp)), rfl, rfl⟩
  · intro n hn
    exact ⟨_, List.mem_append_left _ (mem_strokesTo.2 ⟨n, hn, rfl⟩), rfl, rfl⟩
  · intro hc
    obtain ⟨p, hp⟩ := List.exists_mem_of_ne_nil _ (hchecked.1 hc)
    rcases List.mem_append.1 hp with hp | hp
    · refine .inl ?_
      rw [hd₂]
      exact Draft.linked_withEdges.2 (.inr ⟨_, mem_strokesOf.2 ⟨p, hp, rfl⟩, rfl, rfl⟩)
    · exact .inr ⟨_, List.mem_append_right _ (mem_strokesOf.2 ⟨p, hp, rfl⟩), rfl, rfl⟩

theorem shows_breakLoop : Shows x (.ends [] .broken) Drawing.breakLoop :=
  fun _ _ hg hc _ => ⟨none, _, Drawing.yields_breakLoop.2 ⟨rfl, rfl⟩, depicts_break hg hc⟩

theorem shows_continueLoop : Shows x (.ends [] .continued) Drawing.continueLoop :=
  fun _ _ hg hc _ => ⟨none, _, Drawing.yields_continueLoop.2 ⟨rfl, rfl⟩, depicts_continue hg hc⟩

end

/-! ## Functions -/

/-- The log of a complete run: the body went on to its end, or left before. -/
def Behaviour.Completes (b : Behaviour) (w : List String) : Prop := b w .next ∨ b w .left

section
variable {f : Drawing.Frame} {g s : String} {v : Value} {b : Behaviour} {d : Draft}

theorem Drawing.Frame.log_entry : (f.entry g s v).log = [f.lead ++ s] := rfl

theorem Drawing.Frame.grounded_opened : Grounded (f.finish g s v) (f.opened g s v) where
  numbered := f.numbered_opened g s v
  exit := rfl
  has_exit := (f.has_opened g s v).2 (.inr rfl)
  loops := by
    rw [f.loops_opened]
    exact List.forall_mem_nil _

/-- A marking of the finished graph that admits no more than the behaviour. -/
theorem Feeds.exists_marking (hx : f.exit ≠ "panic!")
    (h : Feeds (f.finish g s v) (f.entry g s v) (f.finish g s v) b (f.opened g s v) d) :
    ∃ A, Marked A (fun q => ∃ u, b u .stopped ∧ q = (f.entry g s v).log ++ u) d.graph ∧
      A (f.entry g s v) (f.entry g s v).log ∧
      ∀ q, A (f.finish g s v) q →
        ∃ u, b.Completes u ∧ q = (f.entry g s v).log ++ u ++ (f.finish g s v).log := by
  have hentry : (f.opened g s v).graph.Has (f.entry g s v) := (f.has_opened g s v).2 (.inl rfl)
  have hexit : (f.opened g s v).graph.Has (f.finish g s v) := (f.has_opened g s v).2 (.inr rfl)
  have hne : (f.finish g s v).id ≠ (f.entry g s v).id := fun e =>
    absurd (congrArg Node.kind ((f.numbered_opened g s v).eq_of_id hexit hentry e))
      (show NodeKind.exit ≠ .block by decide)
  let start : Marking := Marking.set
    (Marking.set (fun _ _ => False) (f.finish g s v) fun q =>
      ∃ u, b.Completes u ∧ q = (f.entry g s v).log ++ u ++ (f.finish g s v).log)
    (f.entry g s v) fun q => q = (f.entry g s v).log
  have hstart : start (f.entry g s v) = fun q => q = (f.entry g s v).log := Marking.set_self _ _ _
  have hfinish : start (f.finish g s v) = fun q =>
      ∃ u, b.Completes u ∧ q = (f.entry g s v).log ++ u ++ (f.finish g s v).log :=
    (Marking.set_of_ne _ _ hne).trans (Marking.set_self _ _ _)
  have hA : Marked start (fun q => ∃ u, b u .stopped ∧ q = (f.entry g s v).log ++ u)
      (f.opened g s v).graph := by
    constructor
    · rintro k n - - ⟨e, he, -⟩
      rw [f.edges_opened] at he
      cases he
    · rintro n hn ⟨hk, hl⟩ q -
      rcases (f.has_opened g s v).1 hn with rfl | rfl
      · exact absurd hk (show NodeKind.block ≠ .exit by decide)
      · exact absurd hl hx
  obtain ⟨A, hag, hA⟩ := h.sound start _ hA (by
    intro q u o hq hu
    rw [hstart] at hq
    subst hq
    rw [f.loops_opened]
    cases o with
    | next =>
      rw [Accepts, hfinish]
      exact ⟨u, .inl hu, rfl⟩
    | broken => simp [Accepts]
    | continued => simp [Accepts]
    | left =>
      rw [Accepts, hfinish]
      exact ⟨u, .inr hu, rfl⟩
    | stopped => exact ⟨u, hu, rfl⟩)
  refine ⟨A, hA, ?_, fun q hq => ?_⟩
  · rw [hag _ hentry, hstart]
  · rwa [hag _ hexit, hfinish] at hq

theorem Feeds.walks_finish (hx : f.exit ≠ "panic!")
    (h : Feeds (f.finish g s v) (f.entry g s v) (f.finish g s v) b (f.opened g s v) d)
    (w : List String) : (∃ p, d.graph.Walk (f.entry g s v) p (f.finish g s v) ∧ logOf p = w) ↔
      ∃ u, b.Completes u ∧ w = (f.entry g s v).log ++ u := by
  constructor
  · rintro ⟨p, hp, rfl⟩
    obtain ⟨A, hA, hentry, hexit⟩ := h.exists_marking hx
    have hhas := h.has _ ((f.has_opened g s v).2 (.inl rfl))
    obtain ⟨u, hu, hq⟩ := hexit _ (hp.marked hA hhas hentry).2
    exact ⟨u, hu, List.append_cancel_right hq⟩
  · rintro ⟨u, hu, rfl⟩
    have hall := h.complete _ _ (d.graph.marked_arrived (f.entry g s v)) (f.entry g s v).log u
    obtain ⟨p, hp, hq⟩ : d.graph.arrived (f.entry g s v) (f.finish g s v)
        ((f.entry g s v).log ++ u ++ (f.finish g s v).log) := by
      rcases hu with hu | hu
      · exact hall .next ⟨[], .start, rfl⟩ hu
      · exact hall .left ⟨[], .start, rfl⟩ hu
    exact ⟨p, hp, (List.append_cancel_right hq).symm⟩

theorem Feeds.walks_stop (hx : f.exit ≠ "panic!")
    (h : Feeds (f.finish g s v) (f.entry g s v) (f.finish g s v) b (f.opened g s v) d)
    (w : List String) :
    (∃ p n, n.Stops ∧ d.graph.Walk (f.entry g s v) p n ∧ logOf (p ++ [n]) = w) ↔
      ∃ u, b u .stopped ∧ w = (f.entry g s v).log ++ u := by
  constructor
  · rintro ⟨p, n, hstop, hp, rfl⟩
    obtain ⟨A, hA, hentry, -⟩ := h.exists_marking hx
    have hhas := h.has _ ((f.has_opened g s v).2 (.inl rfl))
    obtain ⟨hn, hq⟩ := hp.marked hA hhas hentry
    obtain ⟨u, hu, hq⟩ := hA.stop hn hstop hq
    exact ⟨u, hu, by simpa [logOf] using hq⟩
  · rintro ⟨u, hu, rfl⟩
    obtain ⟨n, -, hstop, p, hp, hq⟩ := h.complete _ _
      (d.graph.marked_arrived (f.entry g s v)) (f.entry g s v).log u .stopped ⟨[], .start, rfl⟩ hu
    exact ⟨p, n, hstop, hp, by simpa [logOf] using hq.symm⟩

end

/-- What a walk from the entry to the end of the function logs before it gets there. -/
def Draft.Finishes (d : Draft) (w : List String) : Prop :=
  ∃ entry exit p, d.graph.Has entry ∧ d.graph.entry = some entry.id ∧ d.exit = some exit ∧
    d.graph.Walk entry p exit ∧ logOf p = w

/-- What a walk from the entry to a node where the program ends logs, that node included. -/
def Draft.Halts (d : Draft) (w : List String) : Prop :=
  ∃ entry n p, d.graph.Has entry ∧ d.graph.entry = some entry.id ∧ n.Stops ∧
    d.graph.Walk entry p n ∧ logOf (p ++ [n]) = w

section
variable {d : Draft} {entry exit : Node} {w : List String} (hd : d.graph.Numbered)
  (hhas : d.graph.Has entry) (hentry : d.graph.entry = some entry.id)
include hd hhas hentry

theorem Draft.finishes_iff (hexit : d.exit = some exit) :
    d.Finishes w ↔ ∃ p, d.graph.Walk entry p exit ∧ logOf p = w := by
  constructor
  · rintro ⟨k, n, p, hk, hid, hn, hp, rfl⟩
    rw [hentry, Option.some_inj] at hid
    rw [hexit, Option.some_inj] at hn
    subst hn
    rw [hd.eq_of_id hhas hk hid]
    exact ⟨p, hp, rfl⟩
  · rintro ⟨p, hp, rfl⟩
    exact ⟨entry, exit, p, hhas, hentry, hexit, hp, rfl⟩

theorem Draft.halts_iff :
    d.Halts w ↔ ∃ p n, n.Stops ∧ d.graph.Walk entry p n ∧ logOf (p ++ [n]) = w := by
  constructor
  · rintro ⟨k, n, p, hk, hid, hn, hp, rfl⟩
    rw [hentry, Option.some_inj] at hid
    rw [hd.eq_of_id hhas hk hid]
    exact ⟨p, n, hn, hp, rfl⟩
  · rintro ⟨p, n, hn, hp, rfl⟩
    exact ⟨entry, n, p, hhas, hentry, hn, hp, rfl⟩

end

/-- A function whose body can always be drawn is drawn; its walks are the runs of the body behind
the entry. -/
theorem Shows.drawFunction {f : Drawing.Frame} {g s : String} {v : Value} {b : Behaviour}
    {name : Tree.Excerpt} {describe : String → Except DrawFault Value}
    {body : Node → Drawing (Option Node)} (hx : f.exit ≠ "panic!") (hs : name = .ok s)
    (hv : describe s = .ok v) (hb : Shows (f.finish g s v) b body) :
    ∃ d, (Drawing.drawFunction f name describe body).Yields (.empty g) () d ∧
      (∀ w, d.Finishes w ↔ (Behaviour.seq (.ends [f.lead ++ s] .next) b).Completes w) ∧
      ∀ w, d.Halts w ↔ Behaviour.seq (.ends [f.lead ++ s] .next) b w .stopped := by
  have hentry : (f.opened g s v).graph.Has (f.entry g s v) := (f.has_opened g s v).2 (.inl rfl)
  obtain ⟨r, d₁, hy, hd⟩ := hb (f.entry g s v) (f.opened g s v) f.grounded_opened hentry
    (show NodeKind.block ≠ .exit by decide)
  have hfeeds := hd.feeds f.grounded_opened.has_exit
  have hfilter : r.filter (fun n => n.kind ≠ .exit) = r := by
    cases r with
    | none => rfl
    | some n => simp [Option.filter_some, (hd.stands n (List.mem_singleton_self n)).2]
  have hnumbered := hfeeds.grounded.numbered
  have hhas := hfeeds.has _ hentry
  have hstart := hfeeds.entry.trans (f.entry_opened g s v)
  refine ⟨_, Drawing.yields_drawFunction.2 ⟨s, v, hs, hv, r, d₁, hy, by rw [hfilter]⟩, ?_, ?_⟩
  · intro w
    rw [Draft.finishes_iff hnumbered hhas hstart hfeeds.grounded.exit, hfeeds.walks_finish hx,
      f.log_entry]
    simp only [Behaviour.Completes, Behaviour.seq_ends, or_and_right, exists_or]
  · intro w
    rw [Draft.halts_iff hnumbered hhas hstart, hfeeds.walks_stop hx, f.log_entry,
      Behaviour.seq_ends]

end Workbench.Flow
