/-!
# Chunks

Cuts a document into chunks that are small enough for one request, at the borders of paragraphs. A
paragraph that is too long by itself makes a chunk of its own.
-/

namespace Workbench.Extraction

/-- The paragraphs of a text, where `para` was already read, in reverse, and `breaks` line feeds
after it. Two line feeds or more part two paragraphs, a single one belongs to its paragraph. -/
def paragraphsFrom (para : List Char) (breaks : Nat) : List Char → List (List Char)
  | [] =>
    if 2 ≤ breaks then [para.reverse, []] else [(List.replicate breaks '\n' ++ para).reverse]
  | c :: r =>
    if c = '\n' then paragraphsFrom para (breaks + 1) r
    else if 2 ≤ breaks then para.reverse :: paragraphsFrom [c] 0 r
    else paragraphsFrom (c :: (List.replicate breaks '\n' ++ para)) 0 r

def paragraphs (s : List Char) : List (List Char) := paragraphsFrom [] 0 s

def paragraphBreak : List Char := ['\n', '\n']

/-- Puts paragraphs into groups, where `group` was already begun, in reverse, and has `size`
characters with a break after each paragraph. A new group begins where the limit would be passed. -/
def groupsFrom (limit : Int) (group : List (List Char)) (size : Nat) :
    List (List Char) → List (List (List Char))
  | [] => if group.isEmpty then [] else [group.reverse]
  | p :: ps =>
    if limit < (size + p.length : Nat) ∧ group ≠ [] then
      group.reverse :: groupsFrom limit [p] (p.length + 2) ps
    else groupsFrom limit (p :: group) (size + p.length + 2) ps

def groups (limit : Int) (ps : List (List Char)) : List (List (List Char)) :=
  groupsFrom limit [] 0 ps

def chunks (limit : Int) (s : List Char) : List (List Char) :=
  (groups limit (paragraphs s)).map fun g => paragraphBreak.intercalate g

def chunkLimit : Int := 2000

end Workbench.Extraction
