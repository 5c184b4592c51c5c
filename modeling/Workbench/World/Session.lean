import Workbench.World.Files
import Workbench.World.Web

/-!
# Sessions

One run of a tool: it works on the files, prints, sends requests, and ends by itself, with an exit
code, or with a fault that nobody handled. What was done before the end stays.
-/

namespace Workbench

abbrev Notes := List String

structure Desk where
  files : Files
  out : String
  -- everything complained about so far, which is kept apart from what is printed
  complaints : String
  posts : List Post
  pauses : Nat

inductive Stop (ε : Type) where
  | exit (code : Nat)
  | fault (cause : ε)

abbrev Session (ε α : Type) := ExceptT (Stop ε) (StateM Desk) α

namespace Session

variable {ε α : Type}

def on (x : Session ε α) (files : Files) : Except (Stop ε) α × Desk :=
  (ExceptT.run x).run ⟨files, "", "", [], 0⟩

def exit (code : Nat) : Session ε α := throw (.exit code)

def fail (cause : ε) : Session ε α := throw (.fault cause)

def say (line : String) : Session ε Unit :=
  modify fun d => { d with out := d.out ++ line ++ "\n" }

def files : Session ε Files := return (← get).files

/-- Carries out a change of the files that may fail. What was changed before it failed stays. -/
def change (lift : FileFault → ε) (c : Files.Change Unit) : Session ε Unit := do
  let d ← get
  let (result, files) := (ExceptT.run c).run d.files
  set { d with files := files }
  match result with
  | .ok () => return ()
  | .error e => fail (lift e)

def demand {σ : Type} (lift : σ → ε) : Except σ α → Session ε α
  | .ok a => return a
  | .error e => fail (lift e)

structure Aside (σ β : Type) where
  outcome : Except (Stop σ) β
  out : String
  complaints : String

/-- Runs another tool on the same files. What it changed stays; its outcome and what it had to say
are handed back. -/
def apart {σ β : Type} (x : Session σ β) : Session ε (Aside σ β) := do
  let d ← get
  let (outcome, after) := x.on d.files
  set { d with
    files := after.files, posts := d.posts ++ after.posts, pauses := d.pauses + after.pauses }
  return ⟨outcome, after.out, after.complaints⟩

def note (posts : List Post) (pauses : Nat) : Session ε Unit :=
  modify fun d => { d with posts := d.posts ++ posts, pauses := d.pauses + pauses }

def print (text : String) : Session ε Unit := modify fun d => { d with out := d.out ++ text }

def complain (text : String) : Session ε Unit :=
  modify fun d => { d with complaints := d.complaints ++ text }

end Session

end Workbench
