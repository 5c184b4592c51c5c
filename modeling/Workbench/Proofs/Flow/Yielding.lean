import Workbench.Flow.Draft
import Workbench.Proofs.Flow.Numbering

/-!
# What drawing steps yield

A drawing step that succeeds on a draft yields an answer and a new draft. A step made of others
yields what the others yield one after the other, and the elementary steps come down to three
changes of a draft: a new node, a new edge, other open loops.
-/

namespace Workbench.Flow

namespace Draft

def fresh (d : Draft) (kind : NodeKind) (label : Label) : Node :=
  d.graph.fresh kind label (.str "")

def withNode (d : Draft) (kind : NodeKind) (label : Label) : Draft :=
  { d with graph := (d.graph.addNode kind label (.str "")).2 }

def withEdge (d : Draft) (u v : Node) (kind : EdgeKind) (label : String) : Draft :=
  { d with
    graph := d.graph.addEdge ⟨u.id, v.id, kind, label⟩
    strokes := d.strokes ++ [⟨u.id, v.id, kind, label⟩] }

def grown (d : Draft) (c : Node) (kind : NodeKind) (label : Label) (edge : EdgeKind)
    (edgeLabel : String) : Draft :=
  (d.withNode kind label).withEdge c (d.fresh kind label) edge edgeLabel

def joined (d : Draft) (ends : List Node) (t : Node) : Draft :=
  ends.foldl (fun d n => d.withEdge n t .seq "") d

def jumped (d : Draft) (c : Node) (place : Loop → Node) (label : String) : Draft :=
  match d.loops with
  | [] => d
  | l :: _ => d.withEdge c (place l) .jump label

def withLoops (d : Draft) (l : List Loop) : Draft := { d with loops := l }

@[simp] theorem loops_withNode (d : Draft) (kind : NodeKind) (label : Label) :
    (d.withNode kind label).loops = d.loops := rfl

@[simp] theorem loops_withEdge (d : Draft) (u v : Node) (kind : EdgeKind) (label : String) :
    (d.withEdge u v kind label).loops = d.loops := rfl

@[simp] theorem loops_grown (d : Draft) (c : Node) (kind : NodeKind) (label : Label)
    (edge : EdgeKind) (edgeLabel : String) :
    (d.grown c kind label edge edgeLabel).loops = d.loops := rfl

end Draft

namespace Drawing

variable {α β : Type} {d d' : Draft}

/-- The step succeeds on a draft, with an answer and a new draft. -/
def Yields (x : Drawing α) (d : Draft) (a : α) (d' : Draft) : Prop := x.on d = (.ok a, d')

theorem Yields.unique {x : Drawing α} {d₁ d₂ : Draft} {a b : α} (h : x.Yields d a d₁)
    (h' : x.Yields d b d₂) : a = b ∧ d₁ = d₂ := by
  unfold Yields at h h'
  rw [h] at h'
  cases h'
  exact ⟨rfl, rfl⟩

theorem on_bind (x : Drawing α) (f : α → Drawing β) (d : Draft) :
    (x >>= f).on d = match x.on d with
      | (.ok a, d₁) => (f a).on d₁
      | (.error e, d₁) => (.error e, d₁) := by
  simp only [on, ExceptT.run_bind, StateT.run_bind]
  change _ = match (StateT.run (ExceptT.run x) d : Except DrawFault α × Draft) with
    | (.ok a, d₁) => (f a).on d₁
    | (.error e, d₁) => (.error e, d₁)
  rcases (StateT.run (ExceptT.run x) d : Except DrawFault α × Draft) with ⟨_ | _, _⟩ <;> rfl

@[simp] theorem yields_bind {x : Drawing α} {f : α → Drawing β} {b : β} :
    (x >>= f).Yields d b d' ↔ ∃ a d₁, x.Yields d a d₁ ∧ (f a).Yields d₁ b d' := by
  unfold Yields
  rw [on_bind]
  constructor
  · intro h
    rcases hx : x.on d with ⟨_ | a, d₁⟩
    · rw [hx] at h
      cases h
    · rw [hx] at h
      exact ⟨a, d₁, rfl, h⟩
  · rintro ⟨a, d₁, hx, h⟩
    rw [hx]
    exact h

@[simp] theorem yields_pure {a b : α} : (pure a : Drawing α).Yields d b d' ↔ b = a ∧ d = d' := by
  constructor
  · intro h
    cases h
    exact ⟨rfl, rfl⟩
  · rintro ⟨rfl, rfl⟩
    rfl

@[simp] theorem not_yields_throw {e : DrawFault} {a : α} : ¬ (throw e : Drawing α).Yields d a d' :=
  fun h => by cases h

@[simp] theorem yields_get {a : Draft} : (get : Drawing Draft).Yields d a d' ↔ d = a ∧ d = d' := by
  constructor
  · intro h
    cases h
    exact ⟨rfl, rfl⟩
  · rintro ⟨rfl, rfl⟩
    rfl

@[simp] theorem yields_set {s : Draft} {a : PUnit} :
    (set s : Drawing PUnit).Yields d a d' ↔ d' = s := by
  constructor
  · intro h
    cases h
    rfl
  · rintro rfl
    rfl

@[simp] theorem yields_modify {f : Draft → Draft} {a : PUnit} :
    (modify f : Drawing PUnit).Yields d a d' ↔ d' = f d := by
  constructor
  · intro h
    cases h
    rfl
  · rintro rfl
    rfl

@[simp] theorem yields_addNode {kind : NodeKind} {label : Label} {n : Node} :
    (addNode kind label).Yields d n d' ↔ n = d.fresh kind label ∧ d' = d.withNode kind label := by
  simp only [addNode, yields_bind, yields_get, yields_set, yields_pure]
  constructor
  · rintro ⟨_, _, ⟨rfl, rfl⟩, _, _, rfl, rfl, rfl⟩
    exact ⟨rfl, rfl⟩
  · rintro ⟨rfl, rfl⟩
    exact ⟨_, _, ⟨rfl, rfl⟩, ⟨⟩, _, rfl, rfl, rfl⟩

@[simp] theorem yields_addEdge {u v : Node} {kind : EdgeKind} {label : String} {a : Unit} :
    (addEdge u v kind label).Yields d a d' ↔ d' = d.withEdge u v kind label :=
  yields_modify

@[simp] theorem yields_readable {text : Tree.Excerpt} {s : String} :
    (readable text).Yields d s d' ↔ text = .ok s ∧ d = d' := by
  cases text with
  | error f => simp [readable]
  | ok t => simp only [readable, yields_pure, Except.ok.injEq, eq_comm]

@[simp] theorem yields_functionExit {n : Node} :
    functionExit.Yields d n d' ↔ d.exit = some n ∧ d = d' := by
  simp only [functionExit, yields_bind, yields_get]
  constructor
  · rintro ⟨_, _, ⟨rfl, rfl⟩, h⟩
    cases he : d.exit with
    | none =>
      rw [he] at h
      exact absurd h not_yields_throw
    | some k =>
      rw [he] at h
      obtain ⟨rfl, rfl⟩ := yields_pure.1 h
      exact ⟨rfl, rfl⟩
  · rintro ⟨he, rfl⟩
    refine ⟨d, d, ⟨rfl, rfl⟩, ?_⟩
    rw [he]
    exact yields_pure.2 ⟨rfl, rfl⟩

@[simp] theorem yields_openLoop {header exit : Node} {a : Unit} :
    (openLoop header exit).Yields d a d' ↔ d' = d.withLoops (⟨header, exit⟩ :: d.loops) :=
  yields_modify

@[simp] theorem yields_closeLoop {a : Unit} :
    closeLoop.Yields d a d' ↔ d' = d.withLoops d.loops.tail :=
  yields_modify

@[simp] theorem yields_follow {u v : Node} {a : Unit} :
    (follow u v).Yields d a d' ↔ d' = d.withEdge u v .seq "" :=
  yields_modify

@[simp] theorem yields_append {c n : Node} {kind : NodeKind} {label : Label} :
    (append c kind label).Yields d n d' ↔
      n = d.fresh kind label ∧ d' = d.grown c kind label .seq "" := by
  simp only [append, yields_bind, yields_addNode, yields_follow, yields_pure]
  constructor
  · rintro ⟨_, _, ⟨rfl, rfl⟩, _, _, rfl, rfl, rfl⟩
    exact ⟨rfl, rfl⟩
  · rintro ⟨rfl, rfl⟩
    exact ⟨_, _, ⟨rfl, rfl⟩, ⟨⟩, _, rfl, rfl, rfl⟩

@[simp] theorem yields_branch {c n : Node} {kind : EdgeKind} {edgeLabel label : String} :
    (branch c kind edgeLabel label).Yields d n d' ↔
      n = d.fresh .virtual label ∧ d' = d.grown c .virtual label kind edgeLabel := by
  simp only [branch, yields_bind, yields_addNode, yields_addEdge, yields_pure]
  constructor
  · rintro ⟨_, _, ⟨rfl, rfl⟩, _, _, rfl, rfl, rfl⟩
    exact ⟨rfl, rfl⟩
  · rintro ⟨rfl, rfl⟩
    exact ⟨_, _, ⟨rfl, rfl⟩, ⟨⟩, _, rfl, rfl, rfl⟩

theorem yields_followFrom {finish : Option Node} {v : Node} {a : Unit} :
    (followFrom finish v).Yields d a d' ↔ d' = d.joined finish.toList v := by
  cases finish with
  | none => simp [followFrom, Draft.joined, eq_comm]
  | some u => simp [followFrom, Draft.joined]

theorem yields_forM_follow {ends : List Node} {v : Node} {a : Unit} :
    (ends.forM (follow · v)).Yields d a d' ↔ d' = d.joined ends v := by
  induction ends generalizing d with
  | nil => simp [List.forM, Draft.joined, eq_comm]
  | cons u ends ih =>
    simp only [List.forM, yields_bind, yields_follow, ih]
    constructor
    · rintro ⟨_, _, rfl, rfl⟩
      rfl
    · rintro rfl
      exact ⟨⟨⟩, _, rfl, rfl⟩

theorem yields_repeatFrom {finish : Option Node} {v : Node} {a : Unit}
    (h : (repeatFrom finish v).Yields d a d') :
    (finish = none ∧ d = d') ∨ ∃ u, finish = some u ∧ d' = d.withEdge u v .jump "repeat" := by
  cases finish with
  | none => exact .inl ⟨rfl, (yields_pure.1 h).2⟩
  | some u => exact .inr ⟨u, rfl, yields_addEdge.1 h⟩

theorem yields_breakLoop {c : Node} {r : Option Node} :
    (breakLoop c).Yields d r d' ↔ r = none ∧ d' = d.jumped c Loop.exit "break" := by
  simp only [breakLoop, yields_bind, yields_get, Draft.jumped]
  constructor
  · rintro ⟨_, _, ⟨rfl, rfl⟩, h⟩
    cases hl : d.loops with
    | nil =>
      rw [hl] at h
      obtain ⟨rfl, rfl⟩ := yields_pure.1 h
      exact ⟨rfl, rfl⟩
    | cons l rest =>
      rw [hl] at h
      simp only [yields_bind, yields_addEdge, yields_pure] at h
      obtain ⟨_, _, rfl, rfl, rfl⟩ := h
      exact ⟨rfl, rfl⟩
  · rintro ⟨rfl, rfl⟩
    refine ⟨d, d, ⟨rfl, rfl⟩, ?_⟩
    cases d.loops with
    | nil => exact yields_pure.2 ⟨rfl, rfl⟩
    | cons l rest => exact yields_bind.2 ⟨⟨⟩, _, yields_addEdge.2 rfl, yields_pure.2 ⟨rfl, rfl⟩⟩

theorem yields_continueLoop {c : Node} {r : Option Node} :
    (continueLoop c).Yields d r d' ↔ r = none ∧ d' = d.jumped c Loop.header "continue" := by
  simp only [continueLoop, yields_bind, yields_get, Draft.jumped]
  constructor
  · rintro ⟨_, _, ⟨rfl, rfl⟩, h⟩
    cases hl : d.loops with
    | nil =>
      rw [hl] at h
      obtain ⟨rfl, rfl⟩ := yields_pure.1 h
      exact ⟨rfl, rfl⟩
    | cons l rest =>
      rw [hl] at h
      simp only [yields_bind, yields_addEdge, yields_pure] at h
      obtain ⟨_, _, rfl, rfl, rfl⟩ := h
      exact ⟨rfl, rfl⟩
  · rintro ⟨rfl, rfl⟩
    refine ⟨d, d, ⟨rfl, rfl⟩, ?_⟩
    cases d.loops with
    | nil => exact yields_pure.2 ⟨rfl, rfl⟩
    | cons l rest => exact yields_bind.2 ⟨⟨⟩, _, yields_addEdge.2 rfl, yields_pure.2 ⟨rfl, rfl⟩⟩

end Drawing

end Workbench.Flow
