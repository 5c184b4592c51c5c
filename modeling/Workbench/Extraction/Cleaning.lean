import Workbench.Text.Pattern

/-!
# Cleaning documents

Takes out of a document what is no content: the list of references with all that follows it, images,
a few kinds of tags, and the lines of a table of contents.
-/

namespace Workbench.Extraction

/-! ## What is taken out -/

open Pattern in
/-- A line that is nothing but a heading of references, with the blank lines before it and the rest
of the document. -/
def references : List Pattern :=
  ["references", "bibliography"].map fun title =>
    .lineStart :: blanks ++ anyCase title ++ blanks ++ [.lineEnd, .rest]

open Pattern in
def images : List Pattern :=
  [literal "![" ++ [.few (· != '\n')] ++ literal "](" ++ [.few (· != '\n')] ++ literal ")"]

def tagNames : List String :=
  ["script", "style", "div", "span", "p", "br", "iframe", "video", "img"]

open Pattern in
/-- An opening tag: its name may go on, and anything up to the closing bracket belongs to it. -/
def openingTags : List Pattern :=
  tagNames.map fun name => literal "<" ++ anyCase name ++ [.many (· != '>')] ++ literal ">"

open Pattern in
def closingTags : List Pattern :=
  tagNames.map fun name => literal "</" ++ anyCase name ++ literal ">"

open Pattern in
/-- A line of a table of contents: four points or more, and a number at the end. -/
def contentsLines : List Pattern :=
  [.lineStart :: anything ++ literal "...." ++ [.many (· == '.')] ++ blanks ++
    several isDecimalDigit ++ blanks ++ [.lineEnd]]

/-! ## Cleaning -/

def passes : List (List Pattern) := [references, images, openingTags, closingTags, contentsLines]

def clean (s : List Char) : List Char :=
  Text.strip (passes.foldl (fun s ps => Pattern.erase ps s) s)

end Workbench.Extraction
