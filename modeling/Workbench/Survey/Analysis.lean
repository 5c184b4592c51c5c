import Workbench.Survey.Complexity
import Workbench.Survey.Priority
import Workbench.World.Clock

/-!
# Analyses

Looks at many files and lists the long ones, the most urgent first: those that deserve a warning and
those that are critical.
-/

namespace Workbench.Survey

structure Info where
  path : String
  language : Language
  lines : Nat
  score : Float

/-- Files with more lines get a warning. -/
def warningLimit : Nat := 130

/-- Files with that many lines are critical. -/
def criticalLimit : Nat := 250

def Info.isWarning (i : Info) : Bool := warningLimit < i.lines && i.lines < criticalLimit

def Info.isCritical (i : Info) : Bool := criticalLimit ≤ i.lines

/-- The place of a score among all scores. A score is never negative, and numbers that are not
negative are in the order of their bit patterns. -/
def Info.rank (i : Info) : Nat := i.score.toBits.toNat

def byUrgency (infos : List Info) : List Info := infos.mergeSort fun a b => b.rank ≤ a.rank

structure Analysis where
  warning : List Info
  critical : List Info
  total : Nat
  moment : Moment

def infoOf (files : Files) (linters : Linters) (withComplexity : Bool) (name : String) :
    Except FileFault (Option Info) := do
  match Language.detect files name with
  | none => return none
  | some language =>
    let lines ← countLines files name
    let c ← if withComplexity then fileComplexity files linters (some language) name
      else pure ⟨0, 0, 0, false⟩
    return some ⟨name, language, lines, priority lines c.branches c.nesting c.functions⟩

def infosOf (files : Files) (linters : Linters) (withComplexity : Bool) (names : List String) :
    Except FileFault (List Info) := do
  return (← names.mapM (infoOf files linters withComplexity)).filterMap id

def Analysis.ofInfos (moment : Moment) (infos : List Info) : Analysis :=
  { warning := byUrgency (infos.filter Info.isWarning)
    critical := byUrgency (infos.filter Info.isCritical)
    total := infos.length
    moment := moment }

def analyze (files : Files) (linters : Linters) (moment : Moment) (withComplexity : Bool)
    (names : List String) : Except FileFault Analysis := do
  return .ofInfos moment (← infosOf files linters withComplexity names)

/-! ## As a value -/

def Info.toValue (i : Info) : Value := .dict [
  ("path", .str i.path), ("language", .str i.language.word), ("lines", .int i.lines),
  ("priority_score", .float i.score)]

def Analysis.toValue (a : Analysis) : Value := .dict [
  ("warning_files", .list (a.warning.map Info.toValue)),
  ("critical_files", .list (a.critical.map Info.toValue)),
  ("statistics", .dict [
    ("total_files", .int a.total),
    ("warning_count", .int a.warning.length),
    ("critical_count", .int a.critical.length)]),
  ("scan_timestamp", .str a.moment.stamp)]

end Workbench.Survey
