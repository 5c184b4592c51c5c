import Workbench.Proofs.Flow.Position

/-!
# Whole functions

The draft of a function begins with its entry and its end, and no edges. Then its body is drawn
behind the entry, and where the flow goes on it is led to the end.
-/

namespace Workbench.Flow

namespace Drawing

@[simp] theorem yields_lift {α : Type} {d d' : Draft} {e : Except DrawFault α} {a : α} :
    (liftM e : Drawing α).Yields d a d' ↔ e = .ok a ∧ d = d' := by
  cases e with
  | error f =>
    constructor
    · intro h
      cases h
    · rintro ⟨⟨⟩, -⟩
  | ok b =>
    constructor
    · intro h
      cases h
      exact ⟨rfl, rfl⟩
    · rintro ⟨⟨⟩, rfl⟩
      rfl

namespace Frame

variable (f : Frame) (g s : String) (v : Value)

def entry : Node := (Graph.empty g).fresh .block (f.lead ++ s) v

def begun : Draft :=
  { Draft.empty g with
    graph := ((Graph.empty g).addNode .block (f.lead ++ s) v).2.setEntry (f.entry g s v).id }

def finish : Node := (f.begun g s v).fresh .exit f.exit

def opened : Draft :=
  { (f.begun g s v).withNode .exit f.exit with exit := some (f.finish g s v) }

theorem numbered_begun : (f.begun g s v).graph.Numbered :=
  have h := (Graph.numbered_empty g).addNode .block (f.lead ++ s) v
  ⟨h.counter, h.vertex, h.source, h.target⟩

theorem numbered_opened : (f.opened g s v).graph.Numbered :=
  (f.numbered_begun g s v).addNode .exit f.exit (.str "")

theorem vertices_opened : (f.opened g s v).graph.vertices =
    [⟨(f.entry g s v).id, some (f.entry g s v)⟩, ⟨(f.finish g s v).id, some (f.finish g s v)⟩] :=
  Draft.vertices_withNode (f.numbered_begun g s v)

theorem edges_opened : (f.opened g s v).graph.edges = [] :=
  Draft.edges_withNode (f.numbered_begun g s v)

theorem entry_opened : (f.opened g s v).graph.entry = some (f.entry g s v).id :=
  Draft.entry_withNode (f.numbered_begun g s v)

theorem outgoing_opened (n : Node) : (f.opened g s v).graph.outgoing n = [] := by
  unfold Graph.outgoing
  rw [edges_opened, List.filter_nil]

theorem loops_opened : (f.opened g s v).loops = [] := rfl

theorem has_opened {n : Node} : (f.opened g s v).graph.Has n ↔
    n = f.entry g s v ∨ n = f.finish g s v := by
  unfold Graph.Has
  rw [vertices_opened, List.mem_cons, List.mem_singleton]
  constructor
  · rintro (h | h)
    · exact .inl (by simpa using congrArg Vertex.node? h)
    · exact .inr (by simpa using congrArg Vertex.node? h)
  · rintro (rfl | rfl)
    · exact .inl rfl
    · exact .inr rfl

theorem sound_opened : Sound (f.finish g s v) (f.opened g s v) where
  numbered := f.numbered_opened g s v
  exit := rfl
  exit_kind := rfl
  has_exit := (f.has_opened g s v).2 (.inr rfl)
  exit_sink := f.outgoing_opened g s v _
  loops := by
    rw [loops_opened]
    exact List.forall_mem_nil _

theorem at_opened : At (f.finish g s v) (f.opened g s v) (f.entry g s v) where
  sound := f.sound_opened g s v
  footing := ⟨(f.has_opened g s v).2 (.inl rfl), .inr (.inl (f.entry_opened g s v)),
    show NodeKind.block ≠ .exit by decide⟩
  ne_loop := by
    rw [loops_opened]
    exact List.forall_mem_nil _

end Frame

/-- A function is drawn if its name can be read and described and its body can be drawn. -/
theorem yields_drawFunction {f : Frame} {g : String} {name : Tree.Excerpt}
    {describe : String → Except DrawFault Value} {body : Node → Drawing (Option Node)} {a : Unit}
    {d' : Draft} :
    (drawFunction f name describe body).Yields (.empty g) a d' ↔
      ∃ s v, name = .ok s ∧ describe s = .ok v ∧ ∃ r d₁,
        (body (f.entry g s v)).Yields (f.opened g s v) r d₁ ∧
          d' = d₁.joined (r.filter fun n => n.kind ≠ .exit).toList (f.finish g s v) := by
  have last (x n : Node) (d₁ : Draft) :
      (if n.kind = .exit then return () else follow n x : Drawing Unit).Yields d₁ a d' ↔
        d' = d₁.joined ((some n).filter fun n => n.kind ≠ .exit).toList x := by
    by_cases hn : n.kind = .exit
    · simp [Option.filter_some, hn, Draft.joined, eq_comm]
    · simp [Option.filter_some, hn, Draft.joined]
  simp only [drawFunction, yields_bind, yields_readable, yields_lift, yields_get, yields_set,
    yields_addNode, yields_modify]
  constructor
  · rintro ⟨s, _, ⟨hs, rfl⟩, v, _, ⟨hv, rfl⟩, _, _, ⟨rfl, rfl⟩, _, _, rfl, _, _, ⟨rfl, rfl⟩, _, _,
      rfl, r, d₁, h, hlast⟩
    refine ⟨s, v, hs, hv, r, d₁, h, ?_⟩
    cases r with
    | none => exact (yields_pure.1 hlast).2.symm
    | some n => exact (last _ n d₁).1 hlast
  · rintro ⟨s, v, hs, hv, r, d₁, h, hlast⟩
    refine ⟨s, _, ⟨hs, rfl⟩, v, _, ⟨hv, rfl⟩, _, _, ⟨rfl, rfl⟩, ⟨⟩, _, rfl, _, _, ⟨rfl, rfl⟩, ⟨⟩, _,
      rfl, r, d₁, h, ?_⟩
    cases r with
    | none => exact yields_pure.2 ⟨rfl, hlast.symm⟩
    | some n => exact (last _ n d₁).2 hlast

end Drawing

def Drafted (m : Manner) (f : Drawing.Frame) (d : Draft) : Prop :=
  ∃ (g s : String) (v : Value), Run m (f.finish g s v) (f.entry g s v) (f.opened g s v) d

/-- The body is drawn from the entry, and then the flow is led to the end. -/
theorem run_of_drawn {m : Manner} {f : Drawing.Frame} {g s : String} {v : Value}
    {r : Option Node} {d : Draft}
    (h : Drawn m (f.finish g s v) (f.entry g s v) (f.opened g s v) r d)
    (hf : ∀ n, r = some n → m.free (d.graph.outgoing n) n (f.finish g s v)) :
    Run m (f.finish g s v) (f.entry g s v) (f.opened g s v)
      (d.joined (r.filter fun n => n.kind ≠ .exit).toList (f.finish g s v)) := by
  cases r with
  | none => exact h.run
  | some n =>
    obtain ⟨hn, hsrc⟩ := h.finish n rfl
    rw [Option.filter_some, if_pos (by simpa using hn.footing.not_exit)]
    exact .step h.run (.link hn.footing hn.sound.has_exit hn.ne_exit.symm (.inr rfl)
      hn.sound.exit_sink (hf n rfl) rfl) hsrc

end Workbench.Flow
