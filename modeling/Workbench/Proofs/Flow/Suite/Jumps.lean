import Workbench.Proofs.Flow.Suite.Visits

/-!
# Where jumps lead

A jump out of a round is drawn to the innermost loop that is open. A loop stays open while the suite
for its regular end is drawn, so there a jump is bound to the loop that has just ended and not, as it
should be, to the next one around. Everywhere else it is bound to the innermost loop whose body it
stands in.
-/

namespace Workbench.Flow.Suite

open Drawing

inductive Jump where
  | breaks
  | continues

namespace Jump

def statement : Jump → Statement
  | .breaks => .breakLoop
  | .continues => .continueLoop

def place : Jump → Loop → Node
  | .breaks => Loop.exit
  | .continues => Loop.header

def word : Jump → String
  | .breaks => "break"
  | .continues => "continue"

def edge (j : Jump) (c : Node) (l : Loop) : Edge := ⟨c.id, (j.place l).id, .jump, j.word⟩

theorem yields_iff {j : Jump} {c : Node} {d d' : Draft} {next : Option Node} :
    (j.statement.draw c).Yields d next d' ↔ next = none ∧ d' = d.jumped c j.place j.word := by
  cases j with
  | breaks =>
    simp only [statement, Statement.draw]
    exact yields_breakLoop
  | continues =>
    simp only [statement, Statement.draw]
    exact yields_continueLoop

theorem strokes_jumped (j : Jump) (c : Node) (d : Draft) :
    (d.jumped c j.place j.word).strokes = d.strokes ++ (d.loops.head?.map (j.edge c)).toList := by
  unfold Draft.jumped
  cases d.loops with
  | nil => exact (List.append_nil _).symm
  | cons l ls => rfl

end Jump

/-- The innermost loop whose body is around: the one that a jump should be bound to. -/
def binder (levels : List Level) : Option Loop :=
  (levels.find? fun l => l.side = .body).map Level.loop

section
variable {levels : List Level} {c : Node} {d : Draft} {j : Jump}

theorem Fit.place_ne {l k : Level} (h : Fit (l :: levels) c d) (hk : k ∈ levels) (j : Jump) :
    (j.place l.loop).id ≠ (j.place k.loop).id := by
  obtain ⟨hheader, hexit⟩ := List.rel_of_pairwise_cons h.apart hk
  cases j with
  | breaks => exact hexit
  | continues => exact hheader

/-- The innermost loop is the right one unless the jump stands in the suite for its regular end. -/
theorem Fit.head_eq_binder_iff (h : Fit levels c d) (j : Jump) :
    (levels.head?.map fun l => j.edge c l.loop) = (binder levels).map (j.edge c) ↔
      ∀ l ∈ levels.head?, l.side = .body := by
  cases levels with
  | nil => simp [binder]
  | cons l ls =>
    have hhead : (∀ k ∈ (l :: ls).head?, k.side = .body) ↔ l.side = .body := by simp
    rw [hhead]
    constructor
    · intro heq
      by_contra hside
      -- the right loop is one further out, where the jump should lead instead
      have hfind : binder (l :: ls) = binder ls := by simp [binder, hside]
      rw [hfind] at heq
      obtain ⟨loop, hloop, hedge⟩ := Option.map_eq_some_iff.1 heq.symm
      obtain ⟨k, hk, rfl⟩ := Option.map_eq_some_iff.1 hloop
      exact h.place_ne (List.mem_of_find?_eq_some hk) j (congrArg Edge.target hedge).symm
    · intro hside
      simp [binder, hside]

end

/-- What is drawn for a jump. It is bound as it should be exactly if it does not stand right in the
suite for the regular end of a loop. -/
theorem jump_bound_iff {source : Bytes} {describe : String → Except DrawFault Value} {t : Tree}
    {D d : Draft} {levels : List Level} {j : Jump} {r : List Statement} {c : Node}
    (hd : draft source describe t = (.ok (), D))
    (h : Visited source describe t ⟨levels, .suite (j.statement :: r), c, d⟩) :
    ∃ d', (j.statement.draw c).Yields d none d' ∧
      d'.strokes = d.strokes ++ (levels.head?.map fun l => j.edge c l.loop).toList ∧
      d'.strokes <+: D.graph.edges ∧
      (∀ l ∈ levels, Stands D l.loop) ∧
      (d'.strokes = d.strokes ++ ((binder levels).map (j.edge c)).toList ↔
        ∀ l ∈ levels.head?, l.side = .body) := by
  obtain ⟨hfit, hdrawn⟩ := h.sound hd
  obtain ⟨next, d', hy, hafter⟩ := hdrawn.statement
  obtain ⟨rfl, hd'⟩ := Jump.yields_iff.1 hy
  have hhead : d.loops.head?.map (j.edge c) = levels.head?.map fun l => j.edge c l.loop := by
    rw [hfit.loops, List.head?_map, Option.map_map]
    rfl
  have hstrokes : d'.strokes = d.strokes ++ (levels.head?.map fun l => j.edge c l.loop).toList := by
    rw [hd', j.strokes_jumped, hhead]
  refine ⟨d', hy, hstrokes, ?_, ?_, ?_⟩
  · rw [edges_eq_strokes hd]
    exact hafter.strokes_prefix
  · intro l hl
    exact ((hfit.stands l hl).traced (Statement.traces _ _ _ _ _ hy).1).traced hafter
  · rw [← hfit.head_eq_binder_iff j, hstrokes, List.append_cancel_left_eq]
    constructor
    · exact fun heq => by simpa using congrArg List.head? heq
    · exact fun heq => congrArg Option.toList heq

/-- A loop in a loop. The inner one is left by a jump, and so is the outer one when the inner one ends
by itself. -/
def nestedCode : Bytes :=
  "def f():\n while a:\n  for x in y:\n   break\n  else:\n   break\n".toUTF8.toList

def nestedLoops : Tree :=
  .node "function_definition" 0 58 none
    [.node "identifier" 4 5 (some "name") [],
     .node "block" 10 58 (some "body")
      [.node "while_statement" 10 58 none
        [.node "identifier" 16 17 (some "condition") [],
         .node "block" 21 58 (some "body")
          [.node "for_statement" 21 58 none
            [.node "identifier" 25 26 (some "left") [],
             .node "identifier" 30 31 (some "right") [],
             .node "block" 36 41 (some "body") [.node "break_statement" 36 41 none []],
             .node "else_clause" 44 58 (some "alternative")
              [.node "block" 53 58 (some "body") [.node "break_statement" 53 58 none []]]]]]]]

theorem nestedLoops_body : (Function.ofTree nestedCode nestedLoops).body =
    .suite [.loop (.ok "while a") (.suite [.loop (.ok "for x in ...") (.suite [.breakLoop])
      (some (.suite [.breakLoop]))]) none] := by
  simp only [Function.ofTree, Tree.children, nestedLoops, bodyAt, Option.some.injEq, String.reduceEq,
    ↓reduceIte, statements, isFiller, Tree.kind, String.reduceBEq, Bool.or_self, Bool.false_eq_true,
    Statement.ofTree, elseAt, Body.suite.injEq, List.cons.injEq, Statement.loop.injEq, and_self,
    and_true]
  decide +kernel

theorem visited_nestedLoops : ∃ levels c d, levels.map Level.side = [.otherwise, .body] ∧
    Visited nestedCode (fun _ => .ok (.str "")) nestedLoops
      ⟨levels, .suite [Jump.breaks.statement], c, d⟩ := by
  have hname : (Function.ofTree nestedCode nestedLoops).name = .ok "f" := by decide +kernel
  have hroot : Visited nestedCode (fun _ => .ok (.str "")) nestedLoops
      (rootSpot "f" (.str "") _) := ⟨"f", .str "", _, hname, rfl, nestedLoops_body, .refl⟩
  -- into the body of the outer loop, and from there into the suite for the regular end of the inner one
  have houter := hroot.next (.inside (.loop _ none rfl))
  have hinner : ∀ n d, (Body.draw n (.suite [.breakLoop])).Yields d none (d.jumped n Loop.exit "break") := by
    intro n d
    simp only [Body.draw, drawAll, Statement.draw, yields_bind]
    exact ⟨none, _, yields_breakLoop.2 ⟨rfl, rfl⟩, yields_pure.2 ⟨rfl, rfl⟩⟩
  have helse := houter.next (.inside (.loopElse _ rfl (hinner _ _) (yields_pure.2 ⟨rfl, rfl⟩)))
  exact ⟨_, _, _, rfl, helse⟩

theorem nestedLoops_misbound : ∃ D levels c d,
    draft nestedCode (fun _ => .ok (.str "")) nestedLoops = (.ok (), D) ∧
      Visited nestedCode (fun _ => .ok (.str "")) nestedLoops
        ⟨levels, .suite [Jump.breaks.statement], c, d⟩ ∧
      levels.map Level.side = [.otherwise, .body] ∧
      ∃ d', (Jump.breaks.statement.draw c).Yields d none d' ∧
        d'.strokes ≠ d.strokes ++ ((binder levels).map (Jump.breaks.edge c)).toList := by
  have hok : (draft nestedCode (fun _ => .ok (.str "")) nestedLoops).1 = .ok () := by decide +kernel
  obtain ⟨levels, c, d, hsides, hvisited⟩ := visited_nestedLoops
  obtain ⟨d', hy, -, -, -, hiff⟩ := jump_bound_iff (Prod.ext hok rfl) hvisited
  refine ⟨_, levels, c, d, Prod.ext hok rfl, hvisited, hsides, d', hy, fun heq => ?_⟩
  have hbody := hiff.1 heq
  cases levels with
  | nil => cases hsides
  | cons l ls =>
    have hside : l.side = .otherwise := (List.cons.inj hsides).1
    have hside' : l.side = .body := hbody l (by simp)
    rw [hside] at hside'
    cases hside'

end Workbench.Flow.Suite
