import Workbench.Proofs.Flow.Runs
import Workbench.Proofs.Flow.Suite.Growth
import Workbench.Flow.Outline

/-!
# Runs of suites

The structured core of the statements in suites has a meaning of its own: statements follow each
other, a condition takes either side, a loop runs any number of rounds, and jumps, returns and
raises end what is around them. The flow graph of a function in the core shows exactly this: the
walks from its entry to its end log what the complete runs log.
-/

namespace Workbench.Flow.Suite

open Drawing
open Behaviour (logs)

/-! ## The meaning of a syntax tree -/

/-- A loop that may end before each round. A loop with a suite for its regular end has no meaning
here. -/
def meaningOfLoop (label : Tree.Excerpt) (children : List Tree) (body : Option Behaviour) :
    Option Behaviour := do
  if children.any fun t => t.kind == "else_clause" then none
  else return .Rounds [← label.toOption] True (← body)

mutual

/-- What a statement may do, if it is in the core: its labels can be read, its suites are there, and
it has no choices by pattern, no guarded suites and no further conditions in it. -/
def meaning (source : Bytes) : Tree → Option Behaviour
  | .node kind start stop field children =>
    let text := Tree.text source (.node kind start stop field children)
    match kind with
    | "expression_statement" => meaningOfFirst source children
    | "return_statement" => some (.ends ["return"] .left)
    | "raise_statement" => some (.ends ["raise"] .left)
    | "break_statement" => some (.ends [] .broken)
    | "continue_statement" => some (.ends [] .continued)
    | "assert_statement" => logs (text.map (summary "assert "))
    | "function_definition" => logs (text.map (summary "def "))
    | "class_definition" => logs (text.map (summary "class "))
    | "call" => logs (headLabel "" "()" (Tree.fieldText source "function" children))
    | "with_statement" => do
      return .seq (.ends ["with ..."] .next) (← meaningAt source "body" children)
    | "if_statement" => do
      let test ← logs (headLabel "if " "" (Tree.fieldText source "condition" children))
      let body ← meaningAt source "consequence" children
      return test.seq (body.either (← meaningOfElse source children))
    | "while_statement" =>
      meaningOfLoop (headLabel "while " "" (Tree.fieldText source "condition" children)) children
        (meaningAt source "body" children)
    | "for_statement" =>
      meaningOfLoop (headLabel "for " " in ..." (Tree.fieldText source "left" children)) children
        (meaningAt source "body" children)
    | "try_statement" => none
    | "match_statement" => none
    | _ => logs (text.map (summary ""))

def meaningOfFirst (source : Bytes) : List Tree → Option Behaviour
  | [] => none
  | t :: _ => meaning source t

def meaningOfAll (source : Bytes) : List Tree → Option Behaviour
  | [] => some (.ends [] .next)
  | t :: ts =>
    if isFiller t.kind then meaningOfAll source ts
    else do return .seq (← meaning source t) (← meaningOfAll source ts)

def meaningAt (source : Bytes) (name : String) : List Tree → Option Behaviour
  | [] => none
  | .node _ _ _ field children :: ts =>
    if field = some name then meaningOfAll source children else meaningAt source name ts

def meaningOfElse (source : Bytes) : List Tree → Option Behaviour
  | [] => some (.ends [] .next)
  | .node kind _ _ field children :: ts =>
    if field = some "alternative" then
      if kind = "else_clause" then meaningAt source "body" children else none
    else meaningOfElse source ts

end

def meaningOfFunction (source : Bytes) (t : Tree) : Option Behaviour := do
  let name ← (Tree.fieldText source "name" t.children).toOption
  return .seq (.ends ["def " ++ name] .next) (← meaningAt source "body" t.children)

/-! ## Single statements -/

variable {x : Node} {a b : Behaviour} {label : String} {body other : Body}

theorem shows_plain :
    Shows x (.ends [label] .next) fun c => Statement.draw c (.plain (.ok label)) := by
  simp only [Statement.draw, readable, pure_bind]
  exact shows_append (by decide)

theorem shows_call :
    Shows x (.ends [label] .next) fun c => Statement.draw c (.call (.ok label)) := by
  simp only [Statement.draw, readable, pure_bind]
  exact shows_append (by decide)

theorem shows_ret : Shows x (.ends ["return"] .left) fun c => Statement.draw c .ret := by
  intro c d hg hc _
  refine ⟨none, _, ?_, Depicts.leave hg hc "return" .seq (by decide)⟩
  simp only [Statement.draw, yields_bind, yields_append, yields_get]
  refine ⟨_, _, ⟨rfl, rfl⟩, _, _, ⟨rfl, rfl⟩, ?_⟩
  rw [show (d.grown c .exit "return" .seq "").exit = some x from hg.exit]
  exact yields_bind.2 ⟨⟨⟩, _, yields_follow.2 rfl, yields_pure.2 ⟨rfl, rfl⟩⟩

theorem shows_raise : Shows x (.ends ["raise"] .left) fun c => Statement.draw c .raise := by
  intro c d hg hc _
  refine ⟨none, _, ?_, Depicts.leave hg hc "raise" .err (by decide)⟩
  simp only [Statement.draw, yields_bind, yields_append, yields_get]
  refine ⟨_, _, ⟨rfl, rfl⟩, _, _, ⟨rfl, rfl⟩, ?_⟩
  rw [show (d.grown c .exit "raise" .seq "").exit = some x from hg.exit]
  exact yields_bind.2 ⟨⟨⟩, _, yields_addEdge.2 rfl, yields_pure.2 ⟨rfl, rfl⟩⟩

/-! ## Suites in statements -/

theorem shows_scoped (hb : Shows x b fun c => Body.draw c body) :
    Shows x (.seq (.ends ["with ..."] .next) b) fun c => Statement.draw c (.scoped body) := by
  have hexit : Shows x (.ends [] .next) (fun n => do return some (← append n .virtual "__exit__")) :=
    shows_append (by decide)
  have hinner := hb.seq hexit
  rw [Behaviour.seq_nil_ends] at hinner
  simp only [Statement.draw]
  exact hinner.append (by decide)

theorem shows_cond_none (hb : Shows x b fun c => Body.draw c body) :
    Shows x (.seq (.ends [label] .next) (b.either (.ends [] .next)))
      fun c => Statement.draw c (.cond (.ok label) body .none) := by
  simp only [Statement.draw, Alternative.draw, readable, pure_bind]
  refine Shows.append ?_ (by decide : NodeKind.fork ≠ .exit)
  intro fork d hg hfork hk
  obtain ⟨yes, d₁, hy, hyes⟩ := hb.branch .condTrue "True" "True" fork d hg hfork hk
  have hsides := hyes.either hg hfork (.refl hyes.grounded (hyes.has fork hfork) hk)
  let join := d₁.fresh .join "fi"
  refine ⟨some join, _, ?_, hsides.join "fi"
    (strokesTo join .seq "" yes.toList ++ [⟨fork, join, .condFalse, "False"⟩]) ?_ ?_⟩
  · obtain ⟨start, d₂, hstart, hbody⟩ := yields_bind.1 hy
    simp only [yields_bind, yields_followFrom, yields_addNode, yields_addEdge, yields_pure,
      Draft.withEdges_append, ← Draft.joined_eq_withEdges]
    exact ⟨start, d₂, hstart, yes, d₁, hbody, join, _, ⟨rfl, rfl⟩, ⟨⟩, _, rfl, ⟨⟩, _, rfl, rfl, rfl⟩
  · simp [map_source_strokesTo]
  · exact List.forall_mem_append.2 ⟨fun s => target_strokesTo, List.forall_mem_singleton.2 rfl⟩

/-- A condition with two sides; where neither goes on, the condition does not. -/
theorem shows_cond_otherwise (ha : Shows x a fun c => Body.draw c body)
    (hb : Shows x b fun c => Body.draw c other) :
    Shows x (.seq (.ends [label] .next) (a.either b))
      fun c => Statement.draw c (.cond (.ok label) body (.otherwise other)) := by
  simp only [Statement.draw, Alternative.draw, readable, pure_bind]
  refine Shows.append ?_ (by decide : NodeKind.fork ≠ .exit)
  intro fork d hg hfork hk
  obtain ⟨yes, d₁, hy, hyes⟩ := ha.branch .condTrue "True" "True" fork d hg hfork hk
  obtain ⟨no, d₂, hn, hno⟩ := hb.branch .condFalse "False" "False" fork d₁ hyes.grounded
    (hyes.has fork hfork) hk
  have hsides := hyes.either hg hfork hno
  obtain ⟨start, e₁, hstart, hbody⟩ := yields_bind.1 hy
  obtain ⟨start', e₂, hstart', hother⟩ := yields_bind.1 hn
  simp only [yields_bind]
  by_cases hnone : yes.isNone && no.isNone
  · obtain ⟨hyn, hnn⟩ := Bool.and_eq_true_iff.1 hnone
    rw [Option.isNone_iff_eq_none] at hyn hnn
    subst hyn hnn
    refine ⟨none, d₂, ⟨start, e₁, hstart, none, d₁, hbody, .drawn none, d₂,
      ⟨start', e₂, hstart', none, d₂, hother, yields_pure.2 ⟨rfl, rfl⟩⟩,
      yields_pure.2 ⟨rfl, rfl⟩⟩, hsides⟩
  · let join := d₂.fresh .join "fi"
    refine ⟨some join, _, ⟨start, e₁, hstart, yes, d₁, hbody, .drawn no, d₂,
      ⟨start', e₂, hstart', no, d₂, hother, yields_pure.2 ⟨rfl, rfl⟩⟩, ?_⟩,
      hsides.join "fi" (strokesTo join .seq "" yes.toList ++ strokesTo join .seq "" no.toList) ?_ ?_⟩
    · simp only [hnone, Bool.false_eq_true, if_false, yields_bind, yields_followFrom,
        yields_addNode, yields_pure, Draft.withEdges_append, ← Draft.joined_eq_withEdges]
      exact ⟨join, _, ⟨rfl, rfl⟩, ⟨⟩, _, rfl, ⟨⟩, _, rfl, rfl, rfl⟩
    · simp [map_source_strokesTo]
    · exact List.forall_mem_append.2 ⟨fun s => target_strokesTo, fun s => target_strokesTo⟩

def ShowsElse (x : Node) (b : Behaviour) (alternative : Alternative) : Prop :=
  alternative = .none ∧ b = .ends [] .next ∨
    ∃ body, alternative = .otherwise body ∧ Shows x b fun c => Body.draw c body

theorem shows_cond {alternative : Alternative} (ha : Shows x a fun c => Body.draw c body)
    (hb : ShowsElse x b alternative) : Shows x (.seq (.ends [label] .next) (a.either b))
      fun c => Statement.draw c (.cond (.ok label) body alternative) := by
  rcases hb with ⟨rfl, rfl⟩ | ⟨other, rfl, hb⟩
  · exact shows_cond_none ha
  · exact shows_cond_otherwise ha hb

theorem shows_loop (hb : Shows x b fun c => Body.draw c body) :
    Shows x (.Rounds [label] True b) fun c => Statement.draw c (.loop (.ok label) body none) := by
  have h := (hb.branch .condTrue "True" "Body").loop (by decide : NodeKind.fork ≠ .exit) label
    "end loop" [] [(.condFalse, "Done")] (fun _ _ _ => yields_pure.2 ⟨rfl, rfl⟩)
    (fun _ _ _ => yields_addEdge.2 rfl) (by simp : True ↔ _)
  simp only [pure_bind, bind_assoc] at h
  simp only [Statement.draw, drawLoop, readable, pure_bind]
  exact h

/-! ## Syntax trees -/

theorem elseAt_eq_none {source : Bytes} {ts : List Tree}
    (h : ¬ (ts.any fun t => t.kind == "else_clause") = true) : elseAt source ts = none := by
  induction ts with
  | nil => rfl
  | cons t ts ih =>
    obtain ⟨kind, start, stop, field, children⟩ := t
    simp only [List.any_cons, Tree.kind, Bool.or_eq_true, beq_iff_eq, not_or] at h
    rw [elseAt, if_neg h.1]
    exact ih h.2

theorem shows_logs {text : Tree.Excerpt} (h : logs text = some b) :
    Shows x b fun c => Statement.draw c (.plain text) := by
  obtain ⟨s, rfl, rfl⟩ := Behaviour.logs_eq_some h
  exact shows_plain

theorem shows_meaningOfLoop {text : Tree.Excerpt} {source : Bytes} {children : List Tree}
    {m : Option Behaviour} (h : meaningOfLoop text children m = some b)
    (hm : ∀ a, m = some a → Shows x a fun c => Body.draw c body) :
    Shows x b fun c => Statement.draw c (.loop text body (elseAt source children)) := by
  unfold meaningOfLoop at h
  split at h
  · cases h
  next helse =>
    cases text with
    | error f => cases h
    | ok s =>
      cases m with
      | none => cases h
      | some a =>
        cases h
        rw [elseAt_eq_none helse]
        exact shows_loop (hm a rfl)

mutual

theorem shows_tree (x : Node) (source : Bytes) : ∀ (t : Tree) (b : Behaviour),
    meaning source t = some b → Shows x b fun c => (Statement.ofTree source t).draw c
  | .node kind start stop field children, b, h => by
    unfold meaning at h
    split at h <;> simp only [Statement.ofTree]
    · exact shows_first x source children b h
    · cases h
      exact shows_ret
    · cases h
      exact shows_raise
    · cases h
      simp only [Statement.draw]
      exact shows_breakLoop
    · cases h
      simp only [Statement.draw]
      exact shows_continueLoop
    · exact shows_logs h
    · exact shows_logs h
    · exact shows_logs h
    · obtain ⟨s, hs, rfl⟩ := Behaviour.logs_eq_some h
      rw [hs]
      exact shows_call
    · obtain ⟨body, hbody, hb⟩ := Option.bind_eq_some_iff.1 h
      cases hb
      exact shows_scoped (shows_at x source "body" children body hbody)
    · obtain ⟨test, htest, hb⟩ := Option.bind_eq_some_iff.1 h
      obtain ⟨body, hbody, hb⟩ := Option.bind_eq_some_iff.1 hb
      obtain ⟨other, hother, hb⟩ := Option.bind_eq_some_iff.1 hb
      obtain ⟨s, hs, rfl⟩ := Behaviour.logs_eq_some htest
      cases hb
      rw [hs]
      exact shows_cond (shows_at x source "consequence" children body hbody)
        (shows_else x source children other hother)
    · exact shows_meaningOfLoop h (shows_at x source "body" children)
    · exact shows_meaningOfLoop h (shows_at x source "body" children)
    · cases h
    · cases h
    · exact shows_logs h

theorem shows_first (x : Node) (source : Bytes) : ∀ (ts : List Tree) (b : Behaviour),
    meaningOfFirst source ts = some b → Shows x b fun c => (firstOf source ts).draw c
  | [], b, h => by simp [meaningOfFirst] at h
  | t :: ts, b, h => by
    rw [meaningOfFirst] at h
    simp only [firstOf]
    exact shows_tree x source t b h

theorem shows_all (x : Node) (source : Bytes) : ∀ (ts : List Tree) (b : Behaviour),
    meaningOfAll source ts = some b → Shows x b fun c => drawAll c (statements source ts)
  | [], b, h => by
    cases h
    simp only [statements, drawAll]
    exact shows_pure
  | t :: ts, b, h => by
    rw [meaningOfAll] at h
    rw [statements]
    split at h
    next hf =>
      rw [if_pos hf]
      exact shows_all x source ts b h
    next hf =>
      rw [if_neg hf]
      obtain ⟨first, hfirst, hb⟩ := Option.bind_eq_some_iff.1 h
      obtain ⟨rest, hrest, hb⟩ := Option.bind_eq_some_iff.1 hb
      cases hb
      simp only [drawAll]
      exact (shows_tree x source t first hfirst).seq (shows_all x source ts rest hrest)

theorem shows_at (x : Node) (source : Bytes) (name : String) : ∀ (ts : List Tree) (b : Behaviour),
    meaningAt source name ts = some b → Shows x b fun c => (bodyAt source name ts).draw c
  | [], b, h => by simp [meaningAt] at h
  | .node kind start stop field children :: ts, b, h => by
    rw [meaningAt] at h
    rw [bodyAt]
    split at h
    next hf =>
      rw [if_pos hf]
      simp only [Body.draw]
      exact shows_all x source children b h
    next hf =>
      rw [if_neg hf]
      exact shows_at x source name ts b h

theorem shows_else (x : Node) (source : Bytes) : ∀ (ts : List Tree) (b : Behaviour),
    meaningOfElse source ts = some b → ShowsElse x b (alternativeAt source ts)
  | [], b, h => by
    cases h
    exact .inl ⟨rfl, rfl⟩
  | .node kind start stop field children :: ts, b, h => by
    rw [meaningOfElse] at h
    unfold alternativeAt
    split at h
    next hf =>
      rw [if_pos hf]
      split at h
      next hkind =>
        subst hkind
        exact .inr ⟨_, rfl, shows_at x source "body" children b h⟩
      next => cases h
    next hf =>
      rw [if_neg hf]
      exact shows_else x source ts b h

end

/-- A function in the structured core is drawn, and the walks from its entry to its end log exactly
what its complete runs log. -/
theorem draft_finishes {code : Bytes} {t : Tree} {b : Behaviour}
    (h : meaningOfFunction code t = some b) :
    ∃ d, Flow.draft .suites code none t = (.ok (), d) ∧ ∀ w, d.Finishes w ↔ b.Completes w := by
  obtain ⟨name, hname, hb⟩ := Option.bind_eq_some_iff.1 h
  obtain ⟨body, hbody, hb⟩ := Option.bind_eq_some_iff.1 hb
  cases hb
  obtain ⟨d, hd, hfinishes, -⟩ := Shows.drawFunction (f := ⟨"def ", "return/exit"⟩)
    (g := "python_cfg") (v := .str "") (by decide) (eq_ok_of_toOption hname)
    (show describe none name = .ok (.str "") from rfl)
    (shows_at _ code "body" t.children body hbody)
  exact ⟨d, hd, hfinishes⟩

/-- A loop with a round that is left early, and another that is cut short. -/
def searchCode : Bytes :=
  "def f():\n while a:\n  if b:\n   x = 1\n   break\n  else:\n   continue\n return\n".toUTF8.toList

def searchLoop : Tree :=
  .node "function_definition" 0 73 none
    [.node "identifier" 4 5 (some "name") [],
     .node "block" 10 73 (some "body")
      [.node "while_statement" 10 64 none
        [.node "identifier" 16 17 (some "condition") [],
         .node "block" 21 64 (some "body")
          [.node "if_statement" 21 64 none
            [.node "identifier" 24 25 (some "condition") [],
             .node "block" 30 44 (some "consequence")
              [.node "expression_statement" 30 35 none [.node "assignment" 30 35 none []],
               .node "break_statement" 39 44 none []],
             .node "else_clause" 47 64 (some "alternative")
              [.node "block" 56 64 (some "body") [.node "continue_statement" 56 64 none []]]]]],
       .node "return_statement" 66 72 none []]]

theorem searchLoop_finishes : ∃ d, Flow.draft .suites searchCode none searchLoop = (.ok (), d) ∧
    ∀ w, d.Finishes w ↔ (Behaviour.seq (.ends ["def f"] .next) (.seq (.Rounds ["while a"] True
      (.seq (.seq (.ends ["if b"] .next) (.either
        (.seq (.ends ["x = 1"] .next) (.seq (.ends [] .broken) (.ends [] .next)))
        (.seq (.ends [] .continued) (.ends [] .next)))) (.ends [] .next)))
      (.seq (.ends ["return"] .left) (.ends [] .next)))).Completes w :=
  draft_finishes (by with_unfolding_all rfl)

end Workbench.Flow.Suite
