import Workbench.Syntax.Tree
import Workbench.Flow.Summary

/-!
# Statements in braces

The statements and expressions of a Rust function as far as control flow sees them, read from its
syntax tree. A statement is preceded by the question marks in it: each may leave the function.
A label is either a text or the reason why the source cannot be read, and parts that the tree lacks
stay visible as `Block.missing`.
-/

namespace Workbench.Flow.Braced

inductive LoopHead where
  | whileTrue
  | forEach
deriving DecidableEq, Repr

mutual

inductive Statement where
  | checked (marks : List Tree) (inner : Statement)
  -- a statement that only goes on to the next
  | plain (label : Tree.Excerpt)
  | call (label : Tree.Excerpt)
  -- a wrapper around no statement at all
  | hollow
  | ret
  | panic
  | cond (label : Tree.Excerpt) (consequence : Branch) (alternative : Option Branch)
  | select (label : Tree.Excerpt) (arms : Arms)
  | forever (body : Block)
  -- a loop that a condition ends; the two edges of its check are labelled
  | loop (head : LoopHead) (label : Tree.Excerpt) (body : Block)
  | breakLoop
  | continueLoop

inductive Block where
  | missing
  | braces (statements : List Statement)

/-- One side of a condition, or what an arm does: statements in braces, or one statement. -/
inductive Branch where
  | block (body : Block)
  | single (statement : Statement)

inductive Arms where
  | missing
  | arms (l : List Arm)

inductive Arm where
  | arm (pattern : Tree.Excerpt) (value : Branch)

end

def isFiller (kind : String) : Bool :=
  kind == "\x7b" || kind == "\x7d" || kind == "line_comment" || kind == "block_comment"

mutual

/-- The outermost question marks of a tree, in preorder. Closures and asynchronous blocks keep
theirs to themselves. -/
def questionMarks : Tree → List Tree
  | .node kind start stop field children =>
    if kind = "closure_expression" ∨ kind = "async_block" then []
    else if kind = "try_expression" then [.node kind start stop field children]
    else questionMarksAmong children

def questionMarksAmong : List Tree → List Tree
  | [] => []
  | t :: ts => questionMarks t ++ questionMarksAmong ts

end

def steers (kind : String) : Bool :=
  ["if_expression", "match_expression", "loop_expression", "while_expression", "for_expression",
    "break_expression", "continue_expression"].contains kind

def forLabel (pattern value : Tree.Excerpt) : Tree.Excerpt := do
  return "for " ++ (← pattern) ++ " in " ++ (← value)

def headLabel (lead tail : String) (text : Tree.Excerpt) : Tree.Excerpt :=
  text.map fun s => lead ++ s ++ tail

def invocation (name text : Tree.Excerpt) : Statement :=
  match name with
  | .error f => .plain (.error f)
  | .ok name => if name = "panic" then .panic else .plain (text.map (summary ""))

mutual

def Statement.ofTree (source : Bytes) : Tree → Statement
  | .node kind start stop field children =>
    let tree := Tree.node kind start stop field children
    .checked (questionMarks tree) <|
      match kind with
      | "let_declaration" => .plain ((tree.text source).map (summary "let "))
      | "return_expression" => .ret
      | "expression_statement" => firstOf source children
      | "call_expression" => .call (headLabel "" "()" (Tree.fieldText source "function" children))
      | "macro_invocation" =>
        invocation (Tree.fieldText source "name" children) (tree.text source)
      | "if_expression" =>
        .cond (headLabel "if " "" (Tree.fieldText source "condition" children))
          (branchAt source "consequence" children) (alternativeAt source children)
      | "match_expression" =>
        .select (headLabel "match " "" (Tree.fieldText source "value" children))
          (armsAt source children)
      | "loop_expression" => .forever (blockAt source "body" children)
      | "while_expression" =>
        .loop .whileTrue (headLabel "while " "" (Tree.fieldText source "condition" children))
          (blockAt source "body" children)
      | "for_expression" =>
        .loop .forEach (forLabel (Tree.fieldText source "pattern" children)
          (Tree.fieldText source "value" children)) (blockAt source "body" children)
      | "break_expression" => .breakLoop
      | "continue_expression" => .continueLoop
      | _ => .plain ((tree.text source).map (summary ""))

def firstOf (source : Bytes) : List Tree → Statement
  | [] => .hollow
  | t :: _ => .ofTree source t

def statements (source : Bytes) : List Tree → List Statement
  | [] => []
  | t :: ts =>
    if isFiller t.kind then statements source ts else .ofTree source t :: statements source ts

def blockAt (source : Bytes) (name : String) : List Tree → Block
  | [] => .missing
  | .node _ _ _ field children :: ts =>
    if field = some name then .braces (statements source children) else blockAt source name ts

/-- What fills a field: a block is read as such, anything else as one statement. -/
def branchAt (source : Bytes) (name : String) : List Tree → Branch
  | [] => .block .missing
  | .node kind start stop field children :: ts =>
    if field = some name then
      if kind = "block" then .block (.braces (statements source children))
      else .single (.ofTree source (.node kind start stop field children))
    else branchAt source name ts

def alternativeAt (source : Bytes) : List Tree → Option Branch
  | [] => none
  | .node kind start stop field children :: ts =>
    if field = some "alternative" then
      if kind = "block" then some (.block (.braces (statements source children)))
      else some (.single (.ofTree source (.node kind start stop field children)))
    else alternativeAt source ts

def armsAt (source : Bytes) : List Tree → Arms
  | [] => .missing
  | .node _ _ _ field children :: ts =>
    if field = some "body" then .arms (arms source children) else armsAt source ts

def arms (source : Bytes) : List Tree → List Arm
  | [] => []
  | .node kind _ _ _ children :: ts =>
    if kind = "match_arm" then
      .arm (Tree.fieldText source "pattern" children) (branchAt source "value" children)
        :: arms source ts
    else arms source ts

end

def Statement.unchecked : Statement → Statement
  | .checked _ s => s
  | s => s

def Block.ofTree (source : Bytes) (t : Tree) : Block := .braces (statements source t.children)

structure Function where
  name : Tree.Excerpt
  body : Block

def Function.ofTree (source : Bytes) (t : Tree) : Function :=
  ⟨Tree.fieldText source "name" t.children, blockAt source "body" t.children⟩

end Workbench.Flow.Braced
