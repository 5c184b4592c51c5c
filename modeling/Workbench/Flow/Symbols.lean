/-!
# Symbols

Where functions are defined, by name. A name leads to a definition only if it has exactly one.
-/

namespace Workbench.Flow

structure Definition where
  name : String
  file : String
  node : String
  description : String
deriving DecidableEq, Repr

/-- All definitions, in the order in which they were found. -/
structure Symbols where
  definitions : List Definition

namespace Symbols

def empty : Symbols := ⟨[]⟩

def register (s : Symbols) (d : Definition) : Symbols := ⟨s.definitions ++ [d]⟩

def candidates (s : Symbols) (name : String) : List Definition :=
  s.definitions.filter fun d => d.name == name

def resolve (s : Symbols) (name : String) : Option Definition :=
  match s.candidates name with
  | [d] => some d
  | _ => none

end Symbols

end Workbench.Flow
