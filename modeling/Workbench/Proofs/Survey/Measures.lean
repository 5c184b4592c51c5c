import Mathlib.Algebra.Order.Archimedean.Basic
import Mathlib.Order.Bounds.Defs
import Mathlib.Tactic.Linarith
import Mathlib.Tactic.NormNum
import Workbench.Survey.Complexity
import Workbench.Survey.Priority

/-!
# What measures say

The nesting of a text is the largest surplus of opening braces over closing ones in any stretch of it.
The score of a file rises with each of its measures, but for one step: a file of which only the size
was known may lose when something else is known about it, since its lines then weigh less.
-/

namespace Workbench.Survey

/-! ## Nesting -/

def balance (s : List Char) : Int := s.count '\x7b' - s.count '\x7d'

def openAfter (depth : Nat) (c : Char) : Nat := (depth + balance [c]).toNat

section
variable {c : Char} {r t : List Char} {depth deepest : Nat}

@[simp] theorem balance_nil : balance [] = 0 := rfl

theorem balance_cons (c : Char) (r : List Char) : balance (c :: r) = balance [c] + balance r := by
  simp only [balance, List.count_cons, List.count_nil]
  omega

/-- A closing brace leaves the most that were open as it is, like any other brace. -/
theorem depthFrom_cons (h : depth ≤ deepest) :
    depthFrom depth deepest (c :: r) =
      depthFrom (openAfter depth c) (max deepest (openAfter depth c)) r := by
  unfold openAfter
  rw [depthFrom]
  by_cases hopen : c = '\x7b'
  · subst hopen
    simp [balance]
  · by_cases hclose : c = '\x7d'
    · subst hclose
      have hopenAfter : ((depth : Int) + balance ['\x7d']).toNat = depth - 1 := by
        rw [show balance ['\x7d'] = -1 by decide]
        omega
      rw [hopenAfter, if_neg hopen, if_pos rfl, Nat.max_eq_left (by omega)]
    · simp [balance, hopen, hclose, h]

theorem le_depthFrom (h : depth ≤ deepest) : deepest ≤ depthFrom depth deepest r := by
  induction r generalizing depth deepest with
  | nil => exact Nat.le_refl _
  | cons c r ih =>
    rw [depthFrom_cons h]
    exact (Nat.le_max_left _ _).trans (ih (Nat.le_max_right _ _))

/-- What a stretch at the start adds to the open braces has been open at its end. -/
theorem add_balance_le_depthFrom (h : depth ≤ deepest) (ht : t <+: r) :
    depth + balance t ≤ depthFrom depth deepest r := by
  induction r generalizing depth deepest t with
  | nil =>
    rw [List.prefix_nil.1 ht, balance_nil]
    have := le_depthFrom (r := []) h
    omega
  | cons c r ih =>
    cases t with
    | nil =>
      have := le_depthFrom (r := c :: r) h
      rw [balance_nil]
      omega
    | cons a t =>
      obtain ⟨rfl, hrest⟩ := List.cons_prefix_cons.1 ht
      have hle := ih (Nat.le_max_right deepest (openAfter depth a)) hrest
      have hstep : depth + balance [a] ≤ openAfter depth a := Int.self_le_toNat _
      rw [depthFrom_cons h, balance_cons]
      omega

theorem balance_le_depthFrom (h : depth ≤ deepest) (ht : t <:+: r) :
    balance t ≤ depthFrom depth deepest r := by
  have hstart {d m : Nat} {s : List Char} (h : d ≤ m) (hs : t <+: s) :
      balance t ≤ depthFrom d m s := by
    have := add_balance_le_depthFrom h hs
    omega
  induction r generalizing depth deepest with
  | nil => exact hstart h (List.infix_nil.1 ht ▸ List.prefix_rfl)
  | cons c r ih =>
    rcases List.infix_cons_iff.1 ht with ht | ht
    · exact hstart h ht
    · rw [depthFrom_cons h]
      exact ih (Nat.le_max_right _ _) ht

/-- The most that were open were so from the start on, or are what a stretch at the start adds to
the open braces, or the surplus of a stretch that begins where none was open. -/
theorem depthFrom_reached (h : depth ≤ deepest) :
    depthFrom depth deepest r = deepest ∨
      (∃ t, t <+: r ∧ depthFrom depth deepest r = depth + balance t) ∨
      ∃ t, t <:+: r ∧ depthFrom depth deepest r = balance t := by
  induction r generalizing depth deepest with
  | nil => exact .inl rfl
  | cons c r ih =>
    rw [depthFrom_cons h]
    have hstep : (openAfter depth c : Int) = depth + balance [c] ∨ openAfter depth c = 0 := by
      unfold openAfter
      omega
    rcases ih (Nat.le_max_right deepest (openAfter depth c)) with hd | ⟨t, ht, hd⟩ | ⟨t, ht, hd⟩
    · by_cases hle : openAfter depth c ≤ deepest
      · exact .inl (hd.trans (Nat.max_eq_left hle))
      · refine .inr (.inl ⟨[c], by simp, ?_⟩)
        rw [hd]
        omega
    · rw [hd]
      rcases hstep with hstep | hstep
      · refine .inr (.inl ⟨c :: t, List.cons_prefix_cons.2 ⟨rfl, ht⟩, ?_⟩)
        rw [balance_cons, hstep, Int.add_assoc]
      · refine .inr (.inr ⟨t, ht.isInfix.trans (List.infix_cons List.infix_rfl), ?_⟩)
        simp [hstep]
    · exact .inr (.inr ⟨t, List.infix_cons ht, hd⟩)

end

/-- The nesting of a text is the largest surplus of opening braces in any stretch of it. -/
theorem isGreatest_nestingDepth (s : String) :
    IsGreatest (balance '' {t | t <:+: s.toList}) (nestingDepth s) := by
  constructor
  · rcases depthFrom_reached (r := s.toList) (Nat.le_refl 0) with h | ⟨t, ht, h⟩ | ⟨t, ht, h⟩
    · exact ⟨[], List.nil_infix, by rw [nestingDepth, h]; rfl⟩
    · exact ⟨t, ht.isInfix, by rw [nestingDepth, h]; simp⟩
    · exact ⟨t, ht, h.symm⟩
  · rintro _ ⟨t, ht, rfl⟩
    exact balance_le_depthFrom (Nat.le_refl 0) ht

/-! ## Scores -/

structure Figures where
  lines : Nat
  branches : Nat
  nesting : Nat
  functions : Nat
deriving DecidableEq, Repr

namespace Figures

def sizeOnly (m : Figures) : Bool := m.branches == 0 && m.nesting == 0 && m.functions == 0

instance : LE Figures :=
  ⟨fun a b => a.lines ≤ b.lines ∧ a.branches ≤ b.branches ∧ a.nesting ≤ b.nesting ∧
    a.functions ≤ b.functions⟩

instance : DecidableLE Figures := fun a b =>
  inferInstanceAs (Decidable (a.lines ≤ b.lines ∧ a.branches ≤ b.branches ∧ a.nesting ≤ b.nesting ∧
    a.functions ≤ b.functions))

instance : Preorder Figures where
  le_refl a := ⟨le_rfl, le_rfl, le_rfl, le_rfl⟩
  le_trans a b c hab hbc := ⟨hab.1.trans hbc.1, hab.2.1.trans hbc.2.1, hab.2.2.1.trans hbc.2.2.1,
    hab.2.2.2.trans hbc.2.2.2⟩

def score {α : Type} [Add α] [Mul α] (w : Weights α) (number : Nat → α) (m : Figures) : α :=
  w.score m.sizeOnly (number m.lines) (number m.branches) (number m.nesting) (number m.functions)

end Figures

def Weights.written (α : Type) [OfScientific α] : Weights α := ⟨0.4, 0.3, 0.2, 0.1, 0.7⟩

theorem priority_eq_score (m : Figures) :
    priority m.lines m.branches m.nesting m.functions =
      m.score (.written Float) fun n => Decimal.nearest n 1 := rfl

/-- The score with all weights and sums exact. -/
def exactScore (m : Figures) : ℚ := m.score (.written ℚ) Nat.cast

/-- No measure counts against a file. -/
structure Weights.Fair (w : Weights ℚ) : Prop where
  lines : 0 ≤ w.lines
  complexity : 0 ≤ w.complexity
  nesting : 0 ≤ w.nesting
  functions : 0 ≤ w.functions

theorem fair_written : (Weights.written ℚ).Fair := by
  constructor <;> norm_num [Weights.written]

section
variable {w : Weights ℚ} {a b : Figures}

def Figures.sum (w : Weights ℚ) (m : Figures) : ℚ :=
  w.sum m.lines m.branches m.nesting m.functions

theorem Figures.score_eq (w : Weights ℚ) (m : Figures) :
    m.score w Nat.cast = if m.sizeOnly then m.lines * w.linesAlone else m.sum w := rfl

theorem Figures.sizeOnly_of_le (h : a ≤ b) (hb : b.sizeOnly) : a.sizeOnly := by
  obtain ⟨-, hbranches, hnesting, hfunctions⟩ := h
  simp only [Figures.sizeOnly, Bool.and_eq_true, beq_iff_eq] at hb ⊢
  omega

theorem sum_le_sum (hw : w.Fair) (h : a ≤ b) : a.sum w ≤ b.sum w := by
  have ⟨hlines, hcomplexity, hnesting, hfunctions⟩ := hw
  obtain ⟨h₁, h₂, h₃, h₄⟩ := h
  unfold Figures.sum Weights.sum
  gcongr

/-- The score rises, except that the first thing that becomes known besides the size may lower it. -/
theorem score_le_score_iff (hw : w.Fair) (halone : 0 ≤ w.linesAlone) (h : a ≤ b) :
    a.score w Nat.cast ≤ b.score w Nat.cast ↔
      (a.sizeOnly → ¬ b.sizeOnly → a.lines * w.linesAlone ≤ b.sum w) := by
  rw [Figures.score_eq, Figures.score_eq]
  by_cases hb : b.sizeOnly
  · have hlines : (a.lines : ℚ) ≤ b.lines := Nat.cast_le.2 h.1
    rw [if_pos (Figures.sizeOnly_of_le h hb), if_pos hb]
    exact ⟨fun _ _ hnb => absurd hb hnb, fun _ => by gcongr⟩
  · by_cases ha : a.sizeOnly
    · rw [if_pos ha, if_neg hb]
      exact ⟨fun hle _ _ => hle, fun hle => hle ha hb⟩
    · rw [if_neg ha, if_neg hb]
      exact ⟨fun _ ha' => absurd ha' ha, fun _ => sum_le_sum hw h⟩

theorem lines_mul_le_sum (hw : w.Fair) (m : Figures) : m.lines * w.lines ≤ m.sum w := by
  have hbranches := mul_nonneg (Nat.cast_nonneg (α := ℚ) m.branches) hw.complexity
  have hnesting := mul_nonneg (Nat.cast_nonneg (α := ℚ) m.nesting) hw.nesting
  have hfunctions := mul_nonneg (Nat.cast_nonneg (α := ℚ) m.functions) hw.functions
  unfold Figures.sum Weights.sum
  linarith

/-- The score rises with everything exactly if lines weigh no more by themselves than with others. -/
theorem monotone_score_iff (hw : w.Fair) :
    Monotone (Figures.score w Nat.cast) ↔ 0 ≤ w.linesAlone ∧ w.linesAlone ≤ w.lines := by
  constructor
  · intro hmono
    have halone : 0 ≤ w.linesAlone := by
      have := @hmono ⟨0, 0, 0, 0⟩ ⟨1, 0, 0, 0⟩ (by decide)
      simpa [Figures.score_eq, Figures.sizeOnly] using this
    refine ⟨halone, ?_⟩
    by_contra hlines
    -- the first branch costs more than it is worth if there are lines enough
    have hgap : 0 < w.linesAlone - w.lines := by linarith
    obtain ⟨l, hl⟩ := exists_nat_gt (w.complexity / (w.linesAlone - w.lines))
    have hloss := (div_lt_iff₀ hgap).1 hl
    have hab : (⟨l, 0, 0, 0⟩ : Figures) ≤ ⟨l, 1, 0, 0⟩ := ⟨le_rfl, Nat.zero_le 1, le_rfl, le_rfl⟩
    have hsum := (score_le_score_iff hw halone hab).1 (hmono hab) rfl (by simp [Figures.sizeOnly])
    simp only [Figures.sum, Weights.sum, Nat.cast_zero, Nat.cast_one, zero_mul, one_mul] at hsum
    linarith
  · rintro ⟨halone, hlines⟩ a b h
    refine (score_le_score_iff hw halone h).2 fun _ _ => ?_
    calc (a.lines : ℚ) * w.linesAlone ≤ a.lines * w.lines := by gcongr
      _ ≤ a.sum w := lines_mul_le_sum hw a
      _ ≤ b.sum w := sum_le_sum hw h

end

/-- A file that has more of everything scores at least as much, unless nothing but the size was known of
the first one and too little else is known of the second to make up for the weight that its lines
lose. -/
theorem exactScore_le_iff {a b : Figures} (h : a ≤ b) : exactScore a ≤ exactScore b ↔
    (a.sizeOnly → ¬ b.sizeOnly →
      7 * a.lines ≤ 4 * b.lines + 3 * b.branches + 2 * b.nesting + b.functions) := by
  have hsum : (a.lines : ℚ) * (Weights.written ℚ).linesAlone ≤ b.sum (.written ℚ) ↔
      7 * a.lines ≤ 4 * b.lines + 3 * b.branches + 2 * b.nesting + b.functions := by
    rw [← Nat.cast_le (α := ℚ)]
    simp only [Figures.sum, Weights.sum, Weights.written, Nat.cast_add, Nat.cast_mul]
    constructor <;> intro hle <;> norm_num at hle ⊢ <;> linarith
  unfold exactScore
  rw [score_le_score_iff fair_written (by norm_num [Weights.written]) h, hsum]

/-- The first branch that is found in 200 lines costs them 60 points and brings 0.3. -/
theorem firstBranch_lowers_score :
    let a : Figures := ⟨200, 0, 0, 0⟩
    let b : Figures := ⟨200, 1, 0, 0⟩
    a ≤ b ∧ exactScore b < exactScore a ∧ priority 200 1 0 0 < priority 200 0 0 0 := by
  intro a b
  have h : a ≤ b := by decide
  refine ⟨h, lt_of_not_ge fun hle => ?_, by decide +kernel⟩
  have := (exactScore_le_iff h).1 hle (by decide) (by decide)
  simp [a, b] at this

end Workbench.Survey
