import Workbench.World.Session
import Workbench.Text.Blank

/-!
# The version control gate

Before a tool changes anything it asks git whether the work is under version control and whether
everything is committed. Any other state ends the run.
-/

namespace Workbench

inductive Git.Repository where
  | inside
  | outside
  | noGit
deriving DecidableEq, Repr

inductive Git.Status where
  | printed (text : String)
  | timeout
  | missing
deriving DecidableEq, Repr

structure Git where
  repository : Git.Repository
  status : Git.Status
deriving DecidableEq, Repr

namespace Git

variable {ε : Type}

open Session

def isRepository (git : Git) : Session ε Bool := do
  match git.repository with
  | .inside => return true
  | .outside => return false
  | .noGit =>
    say "[X] Git not found"
    exit 1

def hasChanges (git : Git) : Session ε Bool := do
  match git.status with
  | .printed text => return !(Text.strip text.toList).isEmpty
  | .timeout =>
    say ("[X] Failed to check git status: " ++
      "Command '['git', 'status', '--porcelain']' timed out after 10 seconds")
    exit 1
  | .missing =>
    say "[X] Failed to check git status: [Errno 2] No such file or directory: 'git'"
    exit 1

/-- Lets the run go on only inside a repository with nothing left to commit. -/
def gate (git : Git) : Session ε Unit := do
  say "Checking Git environment..."
  unless ← git.isRepository do
    say "[X] Error: Current directory is not inside a Git repository"
    say "Tip: Run 'git init' or run inside a git repo"
    exit 1
  say "[OK] Git repository check passed"
  if ← git.hasChanges then
    say "[X] Error: Uncommitted changes detected"
    say "\nUncommitted files:"
    say "\nTip: Please commit or stash changes first"
    say "  git status"
    say "  git add <files>"
    say "  git commit -m 'message'"
    exit 1
  say "[OK] Working directory is clean"

end Git

end Workbench
