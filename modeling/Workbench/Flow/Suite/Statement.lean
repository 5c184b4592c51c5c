import Workbench.Syntax.Tree
import Workbench.Flow.Summary

/-!
# Statements in suites

The statements of a Python function as far as control flow sees them, read from its syntax tree.
Every statement carries the label of its node, or the reason why the source text cannot be read.
Parts that the tree lacks stay visible as `Body.missing`, so that reading never fails; drawing does,
when it gets there.
-/

namespace Workbench.Flow.Suite

mutual

inductive Statement where
  -- a statement that only goes on to the next
  | plain (label : Tree.Excerpt)
  | call (label : Tree.Excerpt)
  -- a wrapper around no statement at all
  | hollow
  | ret
  | raise
  | cond (label : Tree.Excerpt) (body : Body) (alternative : Alternative)
  -- a loop, with the suite that runs when it ends by itself
  | loop (label : Tree.Excerpt) (body : Body) (otherwise : Option Body)
  | breakLoop
  | continueLoop
  -- a choice by pattern; its cases are not followed
  | select (label : Tree.Excerpt) (complete : Bool)
  | guarded (body : Body) (handlers : List Body) (final : Option Body)
  -- a suite with an entry and an exit action
  | scoped (body : Body)

inductive Body where
  | missing
  | suite (statements : List Statement)

/-- What stands under the first `alternative` of a condition. -/
inductive Alternative where
  | none
  | elseIf (label : Tree.Excerpt) (body : Body)
  | otherwise (body : Body)
  -- anything else in its place
  | other

end

def isFiller (kind : String) : Bool := kind == ":" || kind == "block_comment" || kind == "comment"

def steers (kind : String) : Bool :=
  ["if_statement", "for_statement", "while_statement", "match_statement", "break_statement",
    "continue_statement"].contains kind

def headLabel (lead tail : String) (text : Tree.Excerpt) : Tree.Excerpt :=
  text.map fun s => lead ++ s ++ tail

mutual

def Statement.ofTree (source : Bytes) : Tree → Statement
  | .node kind start stop field children =>
    let text := Tree.text source (.node kind start stop field children)
    match kind with
    | "expression_statement" => firstOf source children
    | "return_statement" => .ret
    | "raise_statement" => .raise
    | "assert_statement" => .plain (text.map (summary "assert "))
    | "call" => .call (headLabel "" "()" (Tree.fieldText source "function" children))
    | "try_statement" =>
      .guarded (bodyAt source "body" children) (handlers source children) (finalAt source children)
    | "with_statement" => .scoped (bodyAt source "body" children)
    | "function_definition" => .plain (text.map (summary "def "))
    | "class_definition" => .plain (text.map (summary "class "))
    | "if_statement" =>
      .cond (headLabel "if " "" (Tree.fieldText source "condition" children))
        (bodyAt source "consequence" children) (alternativeAt source children)
    | "for_statement" =>
      .loop (headLabel "for " " in ..." (Tree.fieldText source "left" children))
        (bodyAt source "body" children) (elseAt source children)
    | "while_statement" =>
      .loop (headLabel "while " "" (Tree.fieldText source "condition" children))
        (bodyAt source "body" children) (elseAt source children)
    | "match_statement" =>
      .select (headLabel "match " "" (Tree.fieldText source "subject" children))
        (Tree.fillerOf "body" children).isSome
    | "break_statement" => .breakLoop
    | "continue_statement" => .continueLoop
    | _ => .plain (text.map (summary ""))

def firstOf (source : Bytes) : List Tree → Statement
  | [] => .hollow
  | t :: _ => .ofTree source t

def statements (source : Bytes) : List Tree → List Statement
  | [] => []
  | t :: ts =>
    if isFiller t.kind then statements source ts else .ofTree source t :: statements source ts

def bodyAt (source : Bytes) (name : String) : List Tree → Body
  | [] => .missing
  | .node _ _ _ field children :: ts =>
    if field = some name then .suite (statements source children) else bodyAt source name ts

def alternativeAt (source : Bytes) : List Tree → Alternative
  | [] => .none
  | .node kind _ _ field children :: ts =>
    if field = some "alternative" then
      match kind with
      | "elif_clause" =>
        .elseIf (headLabel "elif " "" (Tree.fieldText source "condition" children))
          (bodyAt source "consequence" children)
      | "else_clause" => .otherwise (bodyAt source "body" children)
      | _ => .other
    else alternativeAt source ts

def elseAt (source : Bytes) : List Tree → Option Body
  | [] => none
  | .node kind _ _ _ children :: ts =>
    if kind = "else_clause" then some (bodyAt source "body" children) else elseAt source ts

def handlers (source : Bytes) : List Tree → List Body
  | [] => []
  | .node kind _ _ _ children :: ts =>
    if kind = "except_clause" then bodyAt source "body" children :: handlers source ts
    else handlers source ts

def finalAt (source : Bytes) : List Tree → Option Body
  | [] => none
  | .node _ _ _ field children :: ts =>
    if field = some "finalizer" then some (bodyAt source "body" children) else finalAt source ts

end

def Body.ofTree (source : Bytes) (t : Tree) : Body := .suite (statements source t.children)

structure Function where
  name : Tree.Excerpt
  body : Body

def Function.ofTree (source : Bytes) (t : Tree) : Function :=
  ⟨Tree.fieldText source "name" t.children, bodyAt source "body" t.children⟩

end Workbench.Flow.Suite
