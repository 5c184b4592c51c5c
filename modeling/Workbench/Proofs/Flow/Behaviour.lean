import Workbench.Flow.Graph

/-!
# Behaviours

What a statement may do is told by its logs: the labels of what was carried out, in order, each log
with the way in which the statement ended. Conditions may turn out either way and loops may run any
number of rounds.
-/

namespace Workbench.Flow

inductive Outcome where
  | next
  | broken
  | continued
  | left
  | stopped
deriving DecidableEq, Repr

/-- The logs of a statement, with their outcomes. -/
abbrev Behaviour := List String → Outcome → Prop

namespace Behaviour

def ends (u : List String) (e : Outcome) : Behaviour := fun w o => w = u ∧ o = e

/-- One behaviour after the other; the second begins only if the first went on to it. -/
def seq (a b : Behaviour) : Behaviour := fun w o =>
  (∃ u v, w = u ++ v ∧ a u .next ∧ b v o) ∨ a w o ∧ o ≠ .next

def either (a b : Behaviour) : Behaviour := fun w o => a w o ∨ b w o

def never : Behaviour := fun _ _ => False

/-- The rounds of a loop. At the start of every round the head is logged; a loop with a check may
be done there. -/
inductive Rounds (head : List String) (checked : Prop) (body : Behaviour) : Behaviour
  | done : checked → Rounds head checked body head .next
  | again {u v o o'} : body u o → o = .next ∨ o = .continued → Rounds head checked body v o' →
      Rounds head checked body (head ++ (u ++ v)) o'
  | broken {u} : body u .broken → Rounds head checked body (head ++ u) .next
  | away {u o} : body u o → o = .left ∨ o = .stopped → Rounds head checked body (head ++ u) o

inductive Arrives (head : List String) (body : Behaviour) : List String → Prop
  | first : Arrives head body head
  | again {u v o} : Arrives head body v → body u o → o = .next ∨ o = .continued →
      Arrives head body (v ++ u ++ head)

variable {head t v : List String} {checked : Prop} {a b b' body : Behaviour} {o : Outcome}

theorem Arrives.rounds (h : Arrives head body v) (hr : Rounds head checked body (head ++ t) o) :
    Rounds head checked body (v ++ t) o := by
  induction h generalizing t with
  | first => exact hr
  | again _ hb ho ih =>
    rw [List.append_assoc, List.append_assoc]
    exact ih (.again hb ho hr)

theorem seq_ends {u w : List String} : seq (ends u .next) b w o ↔ ∃ v, b v o ∧ w = u ++ v := by
  constructor
  · rintro (⟨_, v, rfl, ⟨rfl, -⟩, h⟩ | ⟨⟨-, rfl⟩, hne⟩)
    · exact ⟨v, h, rfl⟩
    · exact absurd rfl hne
  · rintro ⟨v, h, rfl⟩
    exact .inl ⟨u, v, rfl, ⟨rfl, rfl⟩, h⟩

theorem seq_ends_nil (b : Behaviour) : seq (ends [] .next) b = b := by
  funext w o
  simp [seq_ends]

theorem seq_nil_ends (b : Behaviour) : seq b (ends [] .next) = b := by
  funext w o
  refine propext ⟨?_, fun h => ?_⟩
  · rintro (⟨u, v, rfl, h, rfl, rfl⟩ | ⟨h, -⟩)
    · rwa [List.append_nil]
    · exact h
  · by_cases ho : o = .next
    · subst ho
      exact .inl ⟨w, [], (List.append_nil w).symm, h, rfl, rfl⟩
    · exact .inr ⟨h, ho⟩

end Behaviour

end Workbench.Flow
