import Workbench.Linear.Definite
import Workbench.Linear.Norm
import Workbench.World.Usage

/-!
# The matrix tool

Answers a question about a matrix that is given on the command line.
-/

namespace Workbench.Linear

open Session

/-! ## Questions -/

/-- Whether a table is a positive definite matrix. A number or a row makes a matrix of one row. -/
def definiteOf (t : Table) : Except Fault Bool := do
  t.checkFinite
  let (height, width) ← match t.shape with
    | [] => pure (1, 1)
    | [n] => pure (1, n)
    | [m, n] => pure (m, n)
    | _ => throw .badTable
  if height = width then return isPositiveDefinite (rowsOf width height (← t.numbers))
  else throw .badTable

def matrixOf (t : Table) : Except Fault Matrix := do
  if t.kind = .free then throw .badTable
  t.checkFinite
  match t.shape with
  | [height, width] => return rowsOf width height (← t.numbers)
  | _ => throw .badTable

def singularOf (t : Table) : Except Fault Row := do
  let m ← matrixOf t
  if width m = 0 then throw .badTable else return singularValues m

def eigenvaluesOf (t : Table) : Except Fault Row := do
  let m ← matrixOf t
  if width m = m.length then return eigenvalues m else throw .badTable

/-! ## The tool -/

inductive Question where
  | definite
  | norm
deriving DecidableEq, Repr

def Question.ofWord? (s : String) : Option Question :=
  if s = "posdef" then some .definite else if s = "norm" then some .norm else none

def commandLine : CommandLine.Grammar := {
  program := "linalg_tools.py"
  description := "Linear Algebra Tools"
  operands := []
  options := [
    ⟨"--matrix", .text, true, "Matrix in JSON format e.g. [[1,2],[3,4]]"⟩,
    ⟨"--action", .choice ["eigen", "svd", "norm", "posdef"], true, "Action to perform"⟩] }

def answer (t : Table) : Question → Session Fault Unit
  | .definite => do
    let yes ← demand id (definiteOf t)
    say ("Is Positive Definite: " ++ if yes then "True" else "False")
  | .norm => do
    say ("Spectral Norm: " ++ Decimal.floatText (← demand id (norm (.power 2.0) t)))

def run (limits : Json.Limits) (args : List String) : Session Fault Unit := do
  let given ← given commandLine args
  let text := (given.value? "--matrix").getD ""
  match ((Json.read limits text).toOption).bind Table.ofValue? with
  | none => exit 1
  | some t =>
    match (given.value? "--action").bind Question.ofWord? with
    | some question => answer t question
    | none => exit 1

end Workbench.Linear
