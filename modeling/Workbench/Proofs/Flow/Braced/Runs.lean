import Workbench.Proofs.Flow.Runs
import Workbench.Proofs.Flow.Braced.Growth
import Workbench.Flow.Outline

/-!
# Runs of blocks

The structured core of the statements in braces has a meaning of its own. A condition takes either
side and a choice one of its arms; a loop without a condition is only left by a jump, and a panic
ends the program. The flow graph of a function in the core, without question marks, shows exactly
this: the walks from its entry to its end, and those to a panic, log what the runs log.
-/

namespace Workbench.Flow.Braced

open Drawing
open Behaviour (logs)

/-! ## The meaning of a syntax tree -/

def meaningOfMacro (name text : Tree.Excerpt) : Option Behaviour := do
  if (← name.toOption) = "panic" then return .ends ["panic!"] .stopped
  else logs (text.map (summary ""))

def meaningOfLoop (label : Tree.Excerpt) (body : Option Behaviour) : Option Behaviour := do
  return .Rounds [← label.toOption] True (← body)

mutual

/-- What a statement may do, if it is in the core: its labels can be read, and its blocks, arms and
patterns are there. -/
def meaning (source : Bytes) : Tree → Option Behaviour
  | .node kind start stop field children =>
    let text := Tree.text source (.node kind start stop field children)
    match kind with
    | "expression_statement" => meaningOfFirst source children
    | "return_expression" => some (.ends ["return"] .left)
    | "break_expression" => some (.ends [] .broken)
    | "continue_expression" => some (.ends [] .continued)
    | "let_declaration" => logs (text.map (summary "let "))
    | "call_expression" => logs (headLabel "" "()" (Tree.fieldText source "function" children))
    | "macro_invocation" => meaningOfMacro (Tree.fieldText source "name" children) text
    | "if_expression" => do
      let test ← logs (headLabel "if " "" (Tree.fieldText source "condition" children))
      let body ← meaningOfBranch source "consequence" children
      return test.seq (body.either (← meaningOfElse source children))
    | "match_expression" => do
      let test ← logs (headLabel "match " "" (Tree.fieldText source "value" children))
      return test.seq (← meaningOfArmsAt source children)
    | "loop_expression" => do return .Rounds [] False (← meaningAt source "body" children)
    | "while_expression" =>
      meaningOfLoop (headLabel "while " "" (Tree.fieldText source "condition" children))
        (meaningAt source "body" children)
    | "for_expression" =>
      meaningOfLoop (forLabel (Tree.fieldText source "pattern" children)
        (Tree.fieldText source "value" children)) (meaningAt source "body" children)
    | _ => logs (text.map (summary ""))

def meaningOfFirst (source : Bytes) : List Tree → Option Behaviour
  | [] => none
  | t :: _ => meaning source t

def meaningOfAll (source : Bytes) : List Tree → Option Behaviour
  | [] => some (.ends [] .next)
  | t :: ts =>
    if isFiller t.kind then meaningOfAll source ts
    else do return .seq (← meaning source t) (← meaningOfAll source ts)

def meaningAt (source : Bytes) (name : String) : List Tree → Option Behaviour
  | [] => none
  | .node _ _ _ field children :: ts =>
    if field = some name then meaningOfAll source children else meaningAt source name ts

def meaningOfBranch (source : Bytes) (name : String) : List Tree → Option Behaviour
  | [] => none
  | .node kind start stop field children :: ts =>
    if field = some name then
      if kind = "block" then meaningOfAll source children
      else meaning source (.node kind start stop field children)
    else meaningOfBranch source name ts

def meaningOfElse (source : Bytes) : List Tree → Option Behaviour
  | [] => some (.ends [] .next)
  | .node kind start stop field children :: ts =>
    if field = some "alternative" then
      if kind = "block" then meaningOfAll source children
      else if kind = "if_expression" then meaning source (.node kind start stop field children)
      else none
    else meaningOfElse source ts

def meaningOfArmsAt (source : Bytes) : List Tree → Option Behaviour
  | [] => none
  | .node _ _ _ field children :: ts =>
    if field = some "body" then meaningOfArms source children else meaningOfArmsAt source ts

def meaningOfArms (source : Bytes) : List Tree → Option Behaviour
  | [] => some .never
  | .node kind _ _ _ children :: ts =>
    if kind = "match_arm" then do
      let _ ← (Tree.fieldText source "pattern" children).toOption
      return .either (← meaningOfBranch source "value" children) (← meaningOfArms source ts)
    else meaningOfArms source ts

end

def meaningOfFunction (source : Bytes) (t : Tree) : Option Behaviour := do
  let name ← (Tree.fieldText source "name" t.children).toOption
  return .seq (.ends ["fn " ++ name] .next) (← meaningAt source "body" t.children)

/-! ## Single statements -/

variable {x : Node} {a b : Behaviour} {label : String} {text : Tree.Excerpt}

theorem shows_checked {s : Statement} (h : Shows x b fun c => Statement.draw c s) :
    Shows x b fun c => Statement.draw c (.checked [] s) := by
  simp only [Statement.draw, drawChecks, pure_bind]
  exact h

theorem shows_logs (h : logs text = some b) :
    Shows x b fun c => Statement.draw c (.plain text) := by
  obtain ⟨s, rfl, rfl⟩ := Behaviour.logs_eq_some h
  simp only [Statement.draw, readable, pure_bind]
  exact shows_append (by decide)

theorem shows_call (h : logs text = some b) :
    Shows x b fun c => Statement.draw c (.call text) := by
  obtain ⟨s, rfl, rfl⟩ := Behaviour.logs_eq_some h
  simp only [Statement.draw, readable, pure_bind]
  exact shows_append (by decide)

theorem shows_ret : Shows x (.ends ["return"] .left) fun c => Statement.draw c .ret := by
  intro c d hg hc _
  refine ⟨none, _, ?_, Depicts.leave hg hc "return" .seq (by decide)⟩
  simp only [Statement.draw, yields_bind, yields_append, yields_functionExit, yields_follow,
    yields_pure]
  exact ⟨_, _, ⟨rfl, rfl⟩, x, _, ⟨hg.exit, rfl⟩, ⟨⟩, _, rfl, trivial, rfl⟩

theorem shows_panic : Shows x (.ends ["panic!"] .stopped) fun c => Statement.draw c .panic := by
  intro c d hg hc _
  refine ⟨none, _, ?_, Depicts.stop hg hc⟩
  simp only [Statement.draw, yields_bind, yields_append, yields_pure]
  exact ⟨_, _, ⟨rfl, rfl⟩, trivial, rfl⟩

/-! ## Conditions -/

/-- The fork is logged; the block beside it is not linked to anything. -/
theorem Shows.appendCondition {step : Node → Drawing (Option Node)} (h : Shows x b step) :
    Shows x (.seq (.ends [label] .next) b)
      (fun c => do step (← Braced.appendCondition c (.ok label))) := by
  have hstub : Shows x b (fun c => do
      let _ ← addNode .block "Then"
      step c) := by
    intro c d hg hc hk
    have hnode := Depicts.withNode hg hc hk .block "Then" (by decide)
    obtain ⟨r, d', hy, hd⟩ := h c _ hnode.grounded (hnode.has c hc) hk
    have hseq := hnode.seq hg hd
    rw [Behaviour.seq_ends_nil] at hseq
    exact ⟨r, d', yields_bind.2 ⟨_, _, yields_addNode.2 ⟨rfl, rfl⟩, hy⟩, hseq⟩
  simp only [Braced.appendCondition, readable, pure_bind, bind_assoc]
  exact hstub.append (by decide : NodeKind.fork ≠ .exit)

/-- The two sides of a fork are joined; where neither goes on, the condition does not. -/
theorem depicts_joinSides {fork : Node} {d d₁ : Draft} {yes no : Option Node}
    (hfork : d.graph.Has fork) (h : Depicts x fork b d (yes.toList ++ no.toList) d₁) :
    ∃ r d', (joinSides fork yes no).Yields d₁ r d' ∧ Depicts x fork b d r.toList d' := by
  unfold joinSides
  by_cases hnone : yes.isNone && no.isNone
  · obtain ⟨hy, hn⟩ := Bool.and_eq_true_iff.1 hnone
    rw [Option.isNone_iff_eq_none] at hy hn
    subst hy hn
    exact ⟨none, d₁, yields_pure.2 ⟨rfl, rfl⟩, h⟩
  · simp only [hnone, Bool.false_eq_true, if_false]
    let join := d₁.fresh .join "fi"
    have htarget : ∀ s ∈ strokesTo join .seq "" yes.toList, s.target = join :=
      fun s => target_strokesTo
    cases no with
    | none =>
      refine ⟨some join, _, ?_, h.join "fi" (strokesTo join .seq "" yes.toList)
        (by simp [map_source_strokesTo]) htarget⟩
      simp only [yields_bind, yields_addNode, yields_followFrom, yields_pure,
        ← Draft.joined_eq_withEdges]
      exact ⟨join, _, ⟨rfl, rfl⟩, ⟨⟩, _, rfl, rfl, rfl⟩
    | some n =>
      by_cases hid : n.id = fork.id
      · -- the side without statements ended at the fork
        have hn : n = fork := h.grounded.numbered.eq_of_id
          (h.stands n (List.mem_append_right _ (List.mem_singleton_self n))).1 (h.has fork hfork) hid
        subst hn
        refine ⟨some join, _, ?_, h.join "fi"
          (strokesTo join .seq "" yes.toList ++ [⟨n, join, .condFalse, "False"⟩])
          (by simp [map_source_strokesTo])
          (List.forall_mem_append.2 ⟨htarget, List.forall_mem_singleton.2 rfl⟩)⟩
        simp only [if_true, yields_bind, yields_addNode, yields_followFrom, yields_addEdge,
          yields_pure, Draft.withEdges_append, ← Draft.joined_eq_withEdges]
        exact ⟨join, _, ⟨rfl, rfl⟩, ⟨⟩, _, rfl, ⟨⟩, _, rfl, rfl, rfl⟩
      · refine ⟨some join, _, ?_, h.join "fi"
          (strokesTo join .seq "" yes.toList ++ [⟨n, join, .seq, ""⟩])
          (by simp [map_source_strokesTo])
          (List.forall_mem_append.2 ⟨htarget, List.forall_mem_singleton.2 rfl⟩)⟩
        simp only [if_neg hid, yields_bind, yields_addNode, yields_followFrom, yields_follow,
          yields_pure, Draft.withEdges_append, ← Draft.joined_eq_withEdges]
        exact ⟨join, _, ⟨rfl, rfl⟩, ⟨⟩, _, rfl, ⟨⟩, _, rfl, rfl, rfl⟩

/-- The statements of a block follow a node of their own, if there are any. -/
theorem shows_block {l : List Statement} (h : Shows x b fun c => drawAll c l) (kind : EdgeKind)
    (label : String) : Shows x b fun c => Branch.draw c kind label (.block (.braces l)) := by
  cases l with
  | nil =>
    simp only [drawAll] at h
    simp only [Branch.draw]
    exact h
  | cons s r =>
    simp only [drawAll] at h
    simp only [Branch.draw]
    exact h.branch kind label label

theorem shows_single {s : Statement} (h : Shows x b fun c => Statement.draw c s) (kind : EdgeKind)
    (label : String) : Shows x b fun c => Branch.draw c kind label (.single s) := by
  simp only [Branch.draw]
  exact h.branch kind label label

theorem shows_cond_none {side : Branch}
    (h : Shows x b fun c => Branch.draw c .condTrue "True" side) :
    Shows x (.seq (.ends [label] .next) (b.either (.ends [] .next)))
      fun c => Statement.draw c (.cond (.ok label) side none) := by
  simp only [Statement.draw]
  refine Shows.appendCondition ?_
  intro fork d hg hfork hk
  obtain ⟨yes, d₁, hy, hyes⟩ := h fork d hg hfork hk
  have hsides : Depicts x fork (b.either (.ends [] .next)) d (yes.toList ++ (some fork).toList) d₁ :=
    hyes.either hg hfork (.refl hyes.grounded (hyes.has fork hfork) hk)
  obtain ⟨r, d', hr, hd⟩ := depicts_joinSides hfork hsides
  exact ⟨r, d', yields_bind.2 ⟨yes, d₁, hy, hr⟩, hd⟩

theorem shows_cond_some {side other : Branch}
    (ha : Shows x a fun c => Branch.draw c .condTrue "True" side)
    (hb : Shows x b fun c => Branch.draw c .condFalse "False" other) :
    Shows x (.seq (.ends [label] .next) (a.either b))
      fun c => Statement.draw c (.cond (.ok label) side (some other)) := by
  simp only [Statement.draw]
  refine Shows.appendCondition ?_
  intro fork d hg hfork hk
  obtain ⟨yes, d₁, hy, hyes⟩ := ha fork d hg hfork hk
  obtain ⟨no, d₂, hn, hno⟩ := hb fork d₁ hyes.grounded (hyes.has fork hfork) hk
  obtain ⟨r, d', hr, hd⟩ := depicts_joinSides hfork (hyes.either hg hfork hno)
  exact ⟨r, d', yields_bind.2 ⟨yes, d₁, hy, yields_bind.2 ⟨no, d₂, hn, hr⟩⟩, hd⟩

/-! ## Choices -/

def ShowsArms (x : Node) (b : Behaviour) (l : List Arm) : Prop :=
  ∀ fork join d, Grounded x d → d.graph.Has fork → fork.kind ≠ .exit → d.graph.Has join →
    ∃ any d', (drawArms fork join l).Yields d any d' ∧ Feeds x fork join b d d' ∧
      (any = false → ∀ w, ¬ b w .next)

theorem showsArms_nil : ShowsArms x .never [] := by
  intro fork join d hg _ _ _
  refine ⟨false, d, ?_, .never hg, fun _ _ h => h⟩
  simp only [drawArms]
  exact yields_pure.2 ⟨rfl, rfl⟩

theorem showsArms_cons {value : Branch} {r : List Arm}
    (hv : Shows x a fun c => Branch.drawInside c value) (hr : ShowsArms x b r) :
    ShowsArms x (a.either b) (.arm (.ok label) value :: r) := by
  intro fork join d hg hfork hk hjoin
  obtain ⟨finish, d₁, hy, hd⟩ := hv.branch .condTrue label ("Case " ++ label) fork d hg hfork hk
  obtain ⟨start, e₁, hstart, hvalue⟩ := yields_bind.1 hy
  have hfeeds := hd.feeds hjoin
  obtain ⟨any, d', hy', hrest, hany⟩ := hr fork join _ hfeeds.grounded (hfeeds.has fork hfork) hk
    (hfeeds.has join hjoin)
  simp only [drawArms, readable, pure_bind, yields_bind]
  cases finish with
  | none =>
    refine ⟨any, d', ⟨start, e₁, hstart, none, d₁, hvalue, hy'⟩, hfeeds.either hg hfork hjoin hrest,
      fun h w hw => ?_⟩
    rcases hw with hw | hw
    · exact hd.not_next w hw
    · exact hany h w hw
  | some n =>
    refine ⟨true, d', ⟨start, e₁, hstart, some n, d₁, hvalue, ?_⟩,
      hfeeds.either hg hfork hjoin hrest, by simp⟩
    exact yields_bind.2 ⟨⟨⟩, _, yields_follow.2 rfl, yields_bind.2 ⟨any, d', hy',
      yields_pure.2 ⟨rfl, rfl⟩⟩⟩

theorem shows_select {l : List Arm} (h : ShowsArms x b l) :
    Shows x (.seq (.ends [label] .next) b)
      fun c => Statement.draw c (.select (.ok label) (.arms l)) := by
  simp only [Statement.draw, readable, pure_bind]
  refine Shows.append ?_ (by decide : NodeKind.fork ≠ .exit)
  intro fork d hg hfork hk
  have hext := Extends.withNode hg .join "end match"
  obtain ⟨any, d', hy, hfeeds, hany⟩ := h fork (d.fresh .join "end match") _ hext.grounded
    (hext.has fork hfork) hk (Draft.has_fresh_withNode hg.numbered)
  have hd := hfeeds.depicts hg hfork
  simp only [yields_bind, yields_addNode]
  cases any with
  | true => exact ⟨some _, d', ⟨_, _, ⟨rfl, rfl⟩, true, d', hy, yields_pure.2 ⟨rfl, rfl⟩⟩, hd⟩
  | false => exact ⟨none, d', ⟨_, _, ⟨rfl, rfl⟩, false, d', hy, yields_pure.2 ⟨rfl, rfl⟩⟩,
      hd.without_ends (hany rfl)⟩

/-! ## Loops -/

theorem shows_forever {body : Block} (h : Shows x b fun c => Block.draw c body) :
    Shows x (.Rounds [] False b) fun c => Statement.draw c (.forever body) := by
  have hloop := h.loop (by decide : NodeKind.join ≠ .exit) "loop" "end loop" [] []
    (fun _ _ _ => yields_pure.2 ⟨rfl, rfl⟩) (fun _ _ _ => yields_pure.2 ⟨rfl, rfl⟩)
    (by simp : False ↔ _)
  simp only [pure_bind] at hloop
  simp only [Statement.draw]
  exact hloop

theorem shows_loop {head : LoopHead} {body : Block} (h : Shows x b fun c => Block.draw c body) :
    Shows x (.Rounds [label] True b) fun c => Statement.draw c (.loop head (.ok label) body) := by
  have hloop := (h.branch .condTrue head.labels.enter "Body").loop
    (by decide : NodeKind.fork ≠ .exit) label head.labels.exit [(.condFalse, head.labels.leave)] []
    (fun _ _ _ => yields_addEdge.2 rfl) (fun _ _ _ => yields_pure.2 ⟨rfl, rfl⟩) (by simp : True ↔ _)
  simp only [pure_bind, bind_assoc] at hloop
  simp only [Statement.draw, readable, pure_bind]
  exact hloop

/-! ## Syntax trees -/

theorem shows_meaningOfMacro {name : Tree.Excerpt} (h : meaningOfMacro name text = some b) :
    Shows x b fun c => Statement.draw c (invocation name text) := by
  obtain ⟨s, hs, h⟩ := Option.bind_eq_some_iff.1 h
  rw [eq_ok_of_toOption hs, invocation]
  split at h
  next hp =>
    cases h
    rw [if_pos hp]
    exact shows_panic
  next hp =>
    rw [if_neg hp]
    exact shows_logs h

theorem shows_meaningOfLoop {m : Option Behaviour} {head : LoopHead} {body : Block}
    (h : meaningOfLoop text m = some b)
    (hm : ∀ a, m = some a → Shows x a fun c => Block.draw c body) :
    Shows x b fun c => Statement.draw c (.loop head text body) := by
  obtain ⟨s, hs, h⟩ := Option.bind_eq_some_iff.1 h
  obtain ⟨a, ha, h⟩ := Option.bind_eq_some_iff.1 h
  cases h
  rw [eq_ok_of_toOption hs]
  exact shows_loop (hm a ha)

def ShowsElse (x : Node) (b : Behaviour) (alternative : Option Branch) : Prop :=
  alternative = none ∧ b = .ends [] .next ∨ ∃ side, alternative = some side ∧
    Shows x b fun c => Branch.draw c .condFalse "False" side

theorem shows_cond {side : Branch} {alternative : Option Branch}
    (ha : Shows x a fun c => Branch.draw c .condTrue "True" side) (hb : ShowsElse x b alternative) :
    Shows x (.seq (.ends [label] .next) (a.either b))
      fun c => Statement.draw c (.cond (.ok label) side alternative) := by
  rcases hb with ⟨rfl, rfl⟩ | ⟨other, rfl, hb⟩
  · exact shows_cond_none ha
  · exact shows_cond_some ha hb

mutual

theorem questionMarks_eq_nil : ∀ t : Tree, t.ofKind "try_expression" = [] → questionMarks t = []
  | .node kind start stop field children, h => by
    rw [Tree.ofKind] at h
    rw [questionMarks]
    split at h
    · cases h
    next hkind =>
      rw [if_neg hkind, questionMarksAmong_eq_nil children h]
      exact ite_self []

theorem questionMarksAmong_eq_nil : ∀ ts : List Tree, Tree.ofKindAmong "try_expression" ts = [] →
    questionMarksAmong ts = []
  | [], _ => rfl
  | t :: ts, h => by
    obtain ⟨ht, hts⟩ := List.append_eq_nil_iff.1 h
    rw [questionMarksAmong, questionMarks_eq_nil t ht, questionMarksAmong_eq_nil ts hts]
    rfl

end

theorem ofKindAmong_children {t : Tree} (h : t.ofKind "try_expression" = []) :
    Tree.ofKindAmong "try_expression" t.children = [] := by
  obtain ⟨kind, start, stop, field, children⟩ := t
  rw [Tree.ofKind] at h
  split at h
  · cases h
  · exact h

theorem blockAt_eq_braces {source : Bytes} {name : String} {ts : List Tree}
    (h : meaningAt source name ts = some b) : ∃ l, blockAt source name ts = .braces l := by
  induction ts with
  | nil => simp [meaningAt] at h
  | cons t ts ih =>
    obtain ⟨kind, start, stop, field, children⟩ := t
    rw [meaningAt] at h
    rw [blockAt]
    split at h
    next hf => exact ⟨_, if_pos hf⟩
    next hf =>
      rw [if_neg hf]
      exact ih h

mutual

theorem shows_tree (x : Node) (source : Bytes) : ∀ (t : Tree) (b : Behaviour),
    t.ofKind "try_expression" = [] → meaning source t = some b →
      Shows x b fun c => (Statement.ofTree source t).draw c
  | .node kind start stop field children, b, ht, h => by
    have hts := ofKindAmong_children ht
    unfold meaning at h
    split at h <;> simp only [Statement.ofTree, questionMarks_eq_nil _ ht] <;> refine shows_checked ?_
    · exact shows_first x source children b hts h
    · cases h
      exact shows_ret
    · cases h
      simp only [Statement.draw]
      exact shows_breakLoop
    · cases h
      simp only [Statement.draw]
      exact shows_continueLoop
    · exact shows_logs h
    · exact shows_call h
    · exact shows_meaningOfMacro h
    · obtain ⟨test, htest, hb⟩ := Option.bind_eq_some_iff.1 h
      obtain ⟨body, hbody, hb⟩ := Option.bind_eq_some_iff.1 hb
      obtain ⟨other, hother, hb⟩ := Option.bind_eq_some_iff.1 hb
      obtain ⟨s, hs, rfl⟩ := Behaviour.logs_eq_some htest
      cases hb
      rw [hs]
      exact shows_cond (shows_branch x source "consequence" children body hts hbody).1
        (shows_else x source children other hts hother)
    · obtain ⟨test, htest, hb⟩ := Option.bind_eq_some_iff.1 h
      obtain ⟨arms, harms, hb⟩ := Option.bind_eq_some_iff.1 hb
      obtain ⟨s, hs, rfl⟩ := Behaviour.logs_eq_some htest
      cases hb
      rw [hs]
      obtain ⟨l, hl, hshows⟩ := shows_armsAt x source children arms hts harms
      rw [hl]
      exact shows_select hshows
    · obtain ⟨body, hbody, hb⟩ := Option.bind_eq_some_iff.1 h
      cases hb
      exact shows_forever (shows_at x source "body" children body hts hbody)
    · exact shows_meaningOfLoop h fun a => shows_at x source "body" children a hts
    · exact shows_meaningOfLoop h fun a => shows_at x source "body" children a hts
    · exact shows_logs h

theorem shows_first (x : Node) (source : Bytes) : ∀ (ts : List Tree) (b : Behaviour),
    Tree.ofKindAmong "try_expression" ts = [] → meaningOfFirst source ts = some b →
      Shows x b fun c => (firstOf source ts).draw c
  | [], b, _, h => by simp [meaningOfFirst] at h
  | t :: ts, b, ht, h => by
    rw [meaningOfFirst] at h
    simp only [firstOf]
    exact shows_tree x source t b (List.append_eq_nil_iff.1 ht).1 h

theorem shows_all (x : Node) (source : Bytes) : ∀ (ts : List Tree) (b : Behaviour),
    Tree.ofKindAmong "try_expression" ts = [] → meaningOfAll source ts = some b →
      Shows x b fun c => drawAll c (statements source ts)
  | [], b, _, h => by
    cases h
    simp only [statements, drawAll]
    exact shows_pure
  | t :: ts, b, ht, h => by
    obtain ⟨ht, hts⟩ := List.append_eq_nil_iff.1 ht
    rw [meaningOfAll] at h
    rw [statements]
    split at h
    next hf =>
      rw [if_pos hf]
      exact shows_all x source ts b hts h
    next hf =>
      rw [if_neg hf]
      obtain ⟨first, hfirst, hb⟩ := Option.bind_eq_some_iff.1 h
      obtain ⟨rest, hrest, hb⟩ := Option.bind_eq_some_iff.1 hb
      cases hb
      simp only [drawAll]
      exact (shows_tree x source t first ht hfirst).seq (shows_all x source ts rest hts hrest)

theorem shows_at (x : Node) (source : Bytes) (name : String) : ∀ (ts : List Tree) (b : Behaviour),
    Tree.ofKindAmong "try_expression" ts = [] → meaningAt source name ts = some b →
      Shows x b fun c => (blockAt source name ts).draw c
  | [], b, _, h => by simp [meaningAt] at h
  | .node kind start stop field children :: ts, b, ht, h => by
    obtain ⟨ht, hts⟩ := List.append_eq_nil_iff.1 ht
    rw [meaningAt] at h
    rw [blockAt]
    split at h
    next hf =>
      rw [if_pos hf]
      simp only [Block.draw]
      exact shows_all x source children b (ofKindAmong_children ht) h
    next hf =>
      rw [if_neg hf]
      exact shows_at x source name ts b hts h

theorem shows_branch (x : Node) (source : Bytes) (name : String) : ∀ (ts : List Tree)
    (b : Behaviour), Tree.ofKindAmong "try_expression" ts = [] →
      meaningOfBranch source name ts = some b →
      (Shows x b fun c => (branchAt source name ts).draw c .condTrue "True") ∧
        Shows x b fun c => (branchAt source name ts).drawInside c
  | [], b, _, h => by simp [meaningOfBranch] at h
  | .node kind start stop field children :: ts, b, ht, h => by
    obtain ⟨ht, hts⟩ := List.append_eq_nil_iff.1 ht
    rw [meaningOfBranch] at h
    rw [branchAt]
    split at h
    next hf =>
      rw [if_pos hf]
      split at h
      next hkind =>
        rw [if_pos hkind]
        have hall := shows_all x source children b (ofKindAmong_children ht) h
        exact ⟨shows_block hall _ _, by simpa only [Branch.drawInside] using hall⟩
      next hkind =>
        rw [if_neg hkind]
        have htree := shows_tree x source _ b ht h
        exact ⟨shows_single htree _ _, by simpa only [Branch.drawInside] using htree⟩
    next hf =>
      rw [if_neg hf]
      exact shows_branch x source name ts b hts h

theorem shows_else (x : Node) (source : Bytes) : ∀ (ts : List Tree) (b : Behaviour),
    Tree.ofKindAmong "try_expression" ts = [] → meaningOfElse source ts = some b →
      ShowsElse x b (alternativeAt source ts)
  | [], b, _, h => by
    cases h
    exact .inl ⟨rfl, rfl⟩
  | .node kind start stop field children :: ts, b, ht, h => by
    obtain ⟨ht, hts⟩ := List.append_eq_nil_iff.1 ht
    rw [meaningOfElse] at h
    rw [alternativeAt]
    split at h
    next hf =>
      rw [if_pos hf]
      split at h
      next hkind =>
        rw [if_pos hkind]
        exact .inr ⟨_, rfl, shows_block (shows_all x source children b (ofKindAmong_children ht) h) _ _⟩
      next hkind =>
        rw [if_neg hkind]
        split at h
        · exact .inr ⟨_, rfl, shows_single (shows_tree x source _ b ht h) _ _⟩
        · cases h
    next hf =>
      rw [if_neg hf]
      exact shows_else x source ts b hts h

theorem shows_armsAt (x : Node) (source : Bytes) : ∀ (ts : List Tree) (b : Behaviour),
    Tree.ofKindAmong "try_expression" ts = [] → meaningOfArmsAt source ts = some b →
      ∃ l, armsAt source ts = .arms l ∧ ShowsArms x b l
  | [], b, _, h => by simp [meaningOfArmsAt] at h
  | .node kind start stop field children :: ts, b, ht, h => by
    obtain ⟨ht, hts⟩ := List.append_eq_nil_iff.1 ht
    rw [meaningOfArmsAt] at h
    rw [armsAt]
    split at h
    next hf =>
      rw [if_pos hf]
      exact ⟨_, rfl, shows_arms x source children b (ofKindAmong_children ht) h⟩
    next hf =>
      rw [if_neg hf]
      exact shows_armsAt x source ts b hts h

theorem shows_arms (x : Node) (source : Bytes) : ∀ (ts : List Tree) (b : Behaviour),
    Tree.ofKindAmong "try_expression" ts = [] → meaningOfArms source ts = some b →
      ShowsArms x b (arms source ts)
  | [], b, _, h => by
    cases h
    exact showsArms_nil
  | .node kind start stop field children :: ts, b, ht, h => by
    obtain ⟨ht, hts⟩ := List.append_eq_nil_iff.1 ht
    rw [meaningOfArms] at h
    rw [arms]
    split at h
    next hkind =>
      rw [if_pos hkind]
      obtain ⟨pattern, hpattern, hb⟩ := Option.bind_eq_some_iff.1 h
      obtain ⟨value, hvalue, hb⟩ := Option.bind_eq_some_iff.1 hb
      obtain ⟨rest, hrest, hb⟩ := Option.bind_eq_some_iff.1 hb
      cases hb
      rw [eq_ok_of_toOption hpattern]
      exact showsArms_cons
        (shows_branch x source "value" children value (ofKindAmong_children ht) hvalue).2
        (shows_arms x source ts rest hts hrest)
    next hkind =>
      rw [if_neg hkind]
      exact shows_arms x source ts b hts h

end

/-- A function in the structured core is drawn. The walks from its entry to its end log exactly what
its complete runs log, and those to a panic what the runs log that end there. -/
theorem draft_traces {code : Bytes} {t : Tree} {b : Behaviour}
    (ht : t.hasKind "try_expression" = false) (h : meaningOfFunction code t = some b) :
    ∃ d, Flow.draft .braces code none t = (.ok (), d) ∧ (∀ w, d.Finishes w ↔ b.Completes w) ∧
      ∀ w, d.Halts w ↔ b w .stopped := by
  obtain ⟨name, hname, hb⟩ := Option.bind_eq_some_iff.1 h
  obtain ⟨body, hbody, hb⟩ := Option.bind_eq_some_iff.1 hb
  cases hb
  have hts := ofKindAmong_children (List.isEmpty_iff.1 (by simpa [Tree.hasKind] using ht))
  obtain ⟨l, hl⟩ := blockAt_eq_braces hbody
  have hshows := fun x => shows_at x code "body" t.children body hts hbody
  rw [hl] at hshows
  obtain ⟨d, hd, hfinishes, hhalts⟩ := Shows.drawFunction (f := ⟨"fn ", "Function Exit"⟩)
    (g := "rust_cfg") (v := .str "") (by decide) (eq_ok_of_toOption hname)
    (show describe none name = .ok (.str "") from rfl) (hshows _)
  refine ⟨d, ?_, hfinishes, hhalts⟩
  simp only [Flow.draft, draft, Function.draw, Function.ofTree, hl]
  exact hd

def choiceCode : Bytes :=
  ("fn f() \x7b\n loop \x7b\n  match a \x7b\n   0 => \x7b x(); break; \x7d\n   1 => panic!(),\n" ++
    "   _ => \x7b\x7d\n  \x7d\n \x7d\n return;\n\x7d\n").toUTF8.toList

def choiceLoop : Tree :=
  .node "function_item" 0 99 none
    [.node "identifier" 3 4 (some "name") [],
     .node "block" 7 99 (some "body")
      [.node "expression_statement" 10 88 none
        [.node "loop_expression" 10 88 none
          [.node "block" 15 88 (some "body")
            [.node "expression_statement" 19 85 none
              [.node "match_expression" 19 85 none
                [.node "identifier" 25 26 (some "value") [],
                 .node "match_block" 27 85 (some "body")
                  [.node "match_arm" 32 52 none
                    [.node "match_pattern" 32 33 (some "pattern") [],
                     .node "block" 37 52 (some "value")
                      [.node "expression_statement" 39 43 none
                        [.node "call_expression" 39 42 none
                          [.node "identifier" 39 40 (some "function") []]],
                       .node "expression_statement" 44 50 none
                        [.node "break_expression" 44 49 none []]]],
                   .node "match_arm" 56 70 none
                    [.node "match_pattern" 56 57 (some "pattern") [],
                     .node "macro_invocation" 61 69 (some "value")
                      [.node "identifier" 61 66 (some "name") []]],
                   .node "match_arm" 74 81 none
                    [.node "match_pattern" 74 75 (some "pattern") [],
                     .node "block" 79 81 (some "value") []]]]]]]],
       .node "expression_statement" 90 97 none [.node "return_expression" 90 96 none []]]]

def choiceRuns : Behaviour :=
  .seq (.ends ["fn f"] .next) (.seq
    (.Rounds [] False (.seq (.seq (.ends ["match a"] .next)
      (.either (.seq (.ends ["x()"] .next) (.seq (.ends [] .broken) (.ends [] .next)))
        (.either (.ends ["panic!"] .stopped) (.either (.ends [] .next) .never)))) (.ends [] .next)))
    (.seq (.ends ["return"] .left) (.ends [] .next)))

theorem choiceLoop_traces : choiceLoop.hasKind "try_expression" = false ∧
    ∃ d, Flow.draft .braces choiceCode none choiceLoop = (.ok (), d) ∧
      (∀ w, d.Finishes w ↔ choiceRuns.Completes w) ∧ ∀ w, d.Halts w ↔ choiceRuns w .stopped :=
  ⟨by decide +kernel, draft_traces (by decide +kernel) (by with_unfolding_all rfl)⟩

end Workbench.Flow.Braced
