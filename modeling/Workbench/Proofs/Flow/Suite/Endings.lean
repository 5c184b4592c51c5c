import Workbench.Proofs.Flow.Suite.Traces

/-!
# Where the flow ends

Whether the flow goes on behind a statement can be told from the statement alone: it does unless the
statement jumps away on every path that is drawn.
-/

namespace Workbench.Flow.Suite

open Drawing

mutual

def Statement.goesOn : Statement → Bool
  | .plain _ => true
  | .call _ => true
  | .hollow => false
  | .ret => false
  | .raise => false
  | .cond _ body alternative => body.goesOn || alternative.goesOn
  | .loop _ _ _ => true
  | .breakLoop => false
  | .continueLoop => false
  | .select _ _ => true
  | .guarded _ _ none => true
  | .guarded _ _ (some suite) => suite.goesOn
  | .scoped body => body.goesOn

def Alternative.goesOn : Alternative → Bool
  | .none => true
  | .other => true
  | .elseIf _ body => body.goesOn
  | .otherwise body => body.goesOn

def Body.goesOn : Body → Bool
  | .missing => false
  | .suite l => allGoOn l

def allGoOn : List Statement → Bool
  | [] => true
  | s :: r => s.goesOn && allGoOn r

end

def FalseSide.goesOn : FalseSide → Bool
  | .bare => true
  | .drawn finish => finish.isSome

theorem isSome_closeCond {fork : Node} {yes next : Option Node} {side : FalseSide} {d d' : Draft}
    (h : (closeCond fork yes side).Yields d next d') : next.isSome = (yes.isSome || side.goesOn) := by
  cases side with
  | bare =>
    simp only [closeCond, yields_bind, yields_pure] at h
    obtain ⟨_, _, _, _, _, _, _, _, _, rfl, _⟩ := h
    simp [FalseSide.goesOn]
  | drawn no =>
    simp only [closeCond] at h
    split at h
    next hnone =>
      obtain ⟨rfl, -⟩ := yields_pure.1 h
      simpa [FalseSide.goesOn] using hnone
    next hsome =>
      simp only [yields_bind, yields_pure] at h
      obtain ⟨_, _, _, _, _, _, _, _, _, rfl, _⟩ := h
      cases yes <;> cases no <;> simp_all [FalseSide.goesOn]

theorem isSome_closeScoped {finish next : Option Node} {d d' : Draft}
    (h : (closeScoped finish).Yields d next d') : next.isSome = finish.isSome := by
  cases finish with
  | none =>
    obtain ⟨rfl, -⟩ := yields_pure.1 h
    rfl
  | some n =>
    simp only [closeScoped, yields_bind, yields_pure] at h
    obtain ⟨_, _, _, rfl, _⟩ := h
    rfl

theorem isSome_append {kind : NodeKind} {label : Tree.Excerpt} {c : Node} {next : Option Node} {d d' : Draft}
    (h : Drawing.Yields (do return some (← append c kind (← readable label))) d next d') :
    next.isSome = true := by
  simp only [yields_bind, yields_pure] at h
  obtain ⟨_, _, _, _, _, _, rfl, _⟩ := h
  rfl

theorem isSome_leave {label : String} {edge : EdgeKind} {c : Node} {next : Option Node} {d d' : Draft}
    (h : Drawing.Yields (do
      let n ← append c .exit label
      if let some exit := (← get).exit then addEdge n exit edge ""
      return none) d next d') : next.isSome = false := by
  simp only [yields_bind] at h
  obtain ⟨_, _, _, _, _, _, h⟩ := h
  split at h
  · simp only [yields_bind, yields_pure] at h
    obtain ⟨_, _, _, rfl, _⟩ := h
    rfl
  · obtain ⟨rfl, -⟩ := yields_pure.1 h
    rfl

-- by recursion on the tree, along what each statement yields
mutual

theorem Statement.isSome_of_yields : ∀ (s : Statement) {c : Node} {d : Draft} {next : Option Node}
    {d' : Draft}, (s.draw c).Yields d next d' → next.isSome = s.goesOn
  | .plain _, c, d, next, d', h => by
    simp only [Statement.draw] at h
    exact isSome_append h
  | .call _, c, d, next, d', h => by
    simp only [Statement.draw] at h
    exact isSome_append h
  | .hollow, c, d, next, d', h => by
    simp only [Statement.draw, not_yields_throw] at h
  | .ret, c, d, next, d', h => by
    simp only [Statement.draw] at h
    exact isSome_leave h
  | .raise, c, d, next, d', h => by
    simp only [Statement.draw] at h
    exact isSome_leave h
  | .cond _ body alternative, c, d, next, d', h => by
    obtain ⟨s, yes, d₁, side, d₂, -, hyes, hside, h⟩ := yields_cond.1 h
    rw [isSome_closeCond h, body.isSome_of_yields hyes, alternative.goesOn_of_yields hside,
      Statement.goesOn]
  | .loop _ body none, c, d, next, d', h => by
    simp only [Statement.draw] at h
    obtain ⟨_, _, _, _, _, _, _, _, _, rfl, _⟩ := yields_drawLoop.1 h
    rfl
  | .loop _ body (some suite), c, d, next, d', h => by
    simp only [Statement.draw] at h
    obtain ⟨_, _, _, _, _, _, _, _, _, rfl, _⟩ := yields_drawLoop.1 h
    rfl
  | .breakLoop, c, d, next, d', h => by
    simp only [Statement.draw] at h
    rw [(yields_breakLoop.1 h).1]
    rfl
  | .continueLoop, c, d, next, d', h => by
    simp only [Statement.draw] at h
    rw [(yields_continueLoop.1 h).1]
    rfl
  | .select _ _, c, d, next, d', h => by
    simp only [Statement.draw, yields_bind] at h
    obtain ⟨_, _, _, _, _, _, _, _, _, h⟩ := h
    split at h
    · obtain ⟨rfl, -⟩ := yields_pure.1 h
      rfl
    · exact absurd h not_yields_throw
  | .guarded body handlers none, c, d, next, d', h => by
    obtain ⟨_, _, _, _, _, _, rfl, _⟩ := yields_guarded.1 h
    rfl
  | .guarded body handlers (some suite), c, d, next, d', h => by
    obtain ⟨_, _, _, _, _, _, h⟩ := yields_guardedFinal.1 h
    rw [suite.isSome_of_yields h, Statement.goesOn]
  | .scoped body, c, d, next, d', h => by
    obtain ⟨_, _, hbody, h⟩ := yields_scoped.1 h
    rw [isSome_closeScoped h, body.isSome_of_yields hbody, Statement.goesOn]

theorem Alternative.goesOn_of_yields : ∀ (a : Alternative) {fork : Node} {d : Draft} {side : FalseSide}
    {d' : Draft}, (a.draw fork).Yields d side d' → side.goesOn = a.goesOn
  | .none, fork, d, side, d', h => by
    simp only [Alternative.draw, yields_pure] at h
    rw [h.1]
    rfl
  | .other, fork, d, side, d', h => by
    simp only [Alternative.draw, yields_bind, yields_pure] at h
    obtain ⟨_, _, _, rfl, _⟩ := h
    rfl
  | .elseIf _ body, fork, d, side, d', h => by
    simp only [Alternative.draw, yields_bind, yields_pure] at h
    obtain ⟨_, _, _, no, _, h, rfl, _⟩ := h
    obtain ⟨_, _, h⟩ := yields_elseIf.1 h
    rw [FalseSide.goesOn, body.isSome_of_yields h, Alternative.goesOn]
  | .otherwise body, fork, d, side, d', h => by
    simp only [Alternative.draw, yields_bind, yields_pure] at h
    obtain ⟨_, _, _, no, _, h, rfl, _⟩ := h
    rw [FalseSide.goesOn, body.isSome_of_yields h, Alternative.goesOn]

theorem Body.isSome_of_yields : ∀ (b : Body) {c : Node} {d : Draft} {next : Option Node} {d' : Draft},
    (b.draw c).Yields d next d' → next.isSome = b.goesOn
  | .missing, c, d, next, d', h => by
    simp only [Body.draw, not_yields_throw] at h
  | .suite l, c, d, next, d', h => by
    simp only [Body.draw] at h
    rw [isSome_of_drawAll l h, Body.goesOn]

theorem isSome_of_drawAll : ∀ (l : List Statement) {c : Node} {d : Draft} {next : Option Node}
    {d' : Draft}, (drawAll c l).Yields d next d' → next.isSome = allGoOn l
  | [], c, d, next, d', h => by
    simp only [drawAll, yields_pure] at h
    rw [h.1]
    rfl
  | s :: r, c, d, next, d', h => by
    obtain ⟨first, d₁, h₁, h⟩ := yields_cons.1 h
    have hfirst := s.isSome_of_yields h₁
    rcases h with ⟨rfl, rfl, -⟩ | ⟨n, rfl, h⟩
    · simp [allGoOn, ← hfirst]
    · rw [isSome_of_drawAll r h, allGoOn, ← hfirst]
      rfl

end

end Workbench.Flow.Suite
