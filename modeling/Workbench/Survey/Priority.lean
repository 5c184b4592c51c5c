import Workbench.Data.Amount

/-!
# Priorities

How urgent a file is: a weighted sum of its size and of the measures of its complexity. A file of
which nothing but the size is known is weighted by that alone.
-/

namespace Workbench.Survey

/-! ## Weights -/

structure Weights (α : Type) where
  lines : α
  complexity : α
  nesting : α
  functions : α
  -- the weight of the lines where nothing else is known
  linesAlone : α

def Weights.sum {α : Type} [Add α] [Mul α] (w : Weights α)
    (lines complexity nesting functions : α) : α :=
  lines * w.lines + complexity * w.complexity + nesting * w.nesting + functions * w.functions

def Weights.score {α : Type} [Add α] [Mul α] (w : Weights α) (sizeOnly : Bool)
    (lines complexity nesting functions : α) : α :=
  if sizeOnly then lines * w.linesAlone else w.sum lines complexity nesting functions

def weights : Weights Float := ⟨0.4, 0.3, 0.2, 0.1, 0.7⟩

/-! ## Scores of measured files -/

def priority (lines complexity nesting functions : Nat) : Float :=
  let number := fun (n : Nat) => Decimal.nearest n 1
  weights.score (complexity == 0 && nesting == 0 && functions == 0)
    (number lines) (number complexity) (number nesting) (number functions)

/-! ## Scores of given numbers -/

inductive ScoreFault where
  -- fewer than two or more than four numbers
  | wrongCount
  | notNumber
  -- a whole number beyond the largest floating-point number
  | tooLarge
deriving DecidableEq, Repr

def readAmount (v : Value) : Except ScoreFault (Amount × Float) :=
  match Amount.ofValue? v with
  | none => .error .notNumber
  | some a =>
    match a.toFloat? with
    | some x => .ok (a, x)
    | none => .error .tooLarge

/-- The score of two to four given values: lines, complexity, nesting and functions, of which the
last two may be left out. The first value that will not do is complained about. -/
def scoreOf (args : List Value) : Except ScoreFault Float :=
  if args.length < 2 ∨ 4 < args.length then .error .wrongCount
  else do
    let given ← (args ++ List.replicate (4 - args.length) (Value.int 0)).mapM readAmount
    match given with
    | [(_, lines), (c, complexity), (n, nesting), (f, functions)] =>
      return weights.score (c.isZero && n.isZero && f.isZero) lines complexity nesting functions
    | _ => throw ScoreFault.wrongCount

end Workbench.Survey
