import Workbench.Data.Display
import Workbench.Text.Blank
import Workbench.Text.Word

/-!
# Command lines

The arguments of a tool: operands, which stand for themselves, and options, which start with two
dashes. An option may be cut short as long as one option only begins that way, and its value may
follow it after an equals sign or as the next argument. Two dashes alone are a divider: after them
every argument stands for itself.
-/

namespace Workbench.CommandLine

inductive Shape where
  | flag
  | text
  | whole
  | choice (words : List String)

structure Operand where
  name : String
  help : String

structure Switch where
  name : String
  shape : Shape
  required : Bool
  help : String

structure Grammar where
  program : String
  description : String
  operands : List Operand
  options : List Switch

/-- What was given. An operand is missing where a divider stands in its place. -/
structure Given where
  operands : List (Option String)
  -- each option with its value, in the order given
  options : List (String × String)

/-- Why a command line was refused; `help` is a request, not a mistake. -/
inductive Refusal where
  | mistake (complaint : String)
  | help
deriving DecidableEq, Repr

/-! ## Whole numbers -/

def digitValue? (c : Char) : Option Nat :=
  if c.toNat < 0x80 then if c.isDigit then some (c.toNat - 48) else none
  else (digitRanges.find? fun (low, high) => low ≤ c.toNat && c.toNat ≤ high).map fun (low, _) =>
    (c.toNat - low) % 10

def digitLimit : Nat := 4300

/-- Digits with single low lines between them. `after` tells whether a digit came just before, and
`left` how many more there can be. -/
def groupedDigits (value : Nat) (after : Bool) (left : Nat) : List Char → Option Nat
  | [] => if after then some value else none
  | '_' :: r => if after then groupedDigits value false left r else none
  | c :: r =>
    match digitValue? c, left with
    | some d, left + 1 => groupedDigits (value * 10 + d) true left r
    | _, _ => none

/-- The blanks around a number; the information separators are not among them. -/
def isMargin (c : Char) : Bool := isBlank c && !(28 ≤ c.toNat && c.toNat ≤ 31)

def int? (s : String) : Option Int :=
  let digits := groupedDigits 0 false digitLimit
  match Text.stripBy isMargin s.toList with
  | '-' :: r => (digits r).map fun n => -(n : Int)
  | '+' :: r => (digits r).map fun n => (n : Int)
  | r => (digits r).map fun n => (n : Int)

/-! ## Single arguments -/

inductive Look where
  | plain
  | option (o : Switch) (value : Option String)
  -- a request for help, unless it comes with something that is refused
  | help (refused : Option String)
  | unknown
  | ambiguous (names : List String)

def helpName : String := "--help"

/-- Digits with at most one point among or before them, behind a dash: a number, not an option. A
line feed at the end does not count. -/
def looksNegative (s : List Char) : Bool :=
  let s := if s.getLast? = some '\n' then s.dropLast else s
  match s with
  | '-' :: r =>
    let whole := r.takeWhile isDecimalDigit
    match r.drop whole.length with
    | [] => !whole.isEmpty
    | '.' :: frac => !frac.isEmpty && frac.all isDecimalDigit
    | _ => false
  | _ => false

def cutValue (s : List Char) : List Char × Option String :=
  let name := s.takeWhile (· != '=')
  match s.drop name.length with
  | [] => (name, none)
  | _ :: v => (name, some (String.ofList v))

/-- What is refused among the letters behind the short name for help. That name may come again; any
other letter is let pass, since help is given before it is looked at. -/
def refusedAfter : List Char → Option String
  | [] => none
  | '-' :: r => some (String.ofList ('-' :: r))
  | 'h' :: '=' :: v => some (String.ofList v)
  | 'h' :: r => refusedAfter r
  | _ => none

def Grammar.named (g : Grammar) (value : Option String) (test : List Char → Bool) :
    List (String × Look) :=
  let help := if test helpName.toList then [(helpName, Look.help value)] else []
  help ++ (g.options.filter fun o => test o.name.toList).map fun o => (o.name, .option o value)

/-- An argument with two dashes in front: an option by its full name, or by a beginning of it that
no other option shares. -/
def Grammar.lookLong? (g : Grammar) (s : List Char) : Option Look :=
  let (name, value) := cutValue s
  let chosen := match g.named none (· == s) with
    | [] =>
      match g.named value (· == name) with
      | [] => g.named value name.isPrefixOf
      | exact => exact
    | whole => whole
  match chosen with
  | [] => none
  | [(_, look)] => some look
  | several => some (.ambiguous (several.map Prod.fst))

def Grammar.look (g : Grammar) (arg : String) : Look :=
  let otherwise := fun s =>
    if looksNegative s || s.contains ' ' then Look.plain else .unknown
  match arg.toList with
  | ['-'] => .plain
  | '-' :: '-' :: r => (g.lookLong? ('-' :: '-' :: r)).getD (otherwise ('-' :: '-' :: r))
  | '-' :: 'h' :: '=' :: v => .help (some (String.ofList v))
  | '-' :: 'h' :: r => .help (refusedAfter r)
  | '-' :: r => otherwise ('-' :: r)
  | _ => .plain

/-! ## Complaints -/

def about (name problem : String) : Refusal := .mistake ("argument " ++ name ++ ": " ++ problem)

def ignored (name value : String) : Refusal :=
  about name ("ignored explicit argument " ++ Text.quoted value)

def Switch.check (o : Switch) (value : String) : Except Refusal Unit :=
  match o.shape with
  | .flag => .error (ignored o.name value)
  | .text => .ok ()
  | .whole =>
    if (int? value).isSome then .ok ()
    else .error (about o.name ("invalid int value: " ++ Text.quoted value))
  | .choice words =>
    if words.contains value then .ok ()
    else .error (about o.name ("invalid choice: " ++ Text.quoted value ++ " (choose from " ++
      String.intercalate ", " (words.map Text.quoted) ++ ")"))

/-! ## Whole command lines -/

structure Progress where
  given : Given
  -- the arguments that nothing takes
  extras : List String
  -- whether the last argument was taken as an operand
  fresh : Bool

namespace Progress

def start : Progress := ⟨⟨[], []⟩, [], false⟩

def addOption (p : Progress) (name value : String) : Progress :=
  { p with given := { p.given with options := p.given.options ++ [(name, value)] }, fresh := false }

def addExtra (p : Progress) (arg : String) : Progress :=
  { p with extras := p.extras ++ [arg], fresh := false }

def addOperand (g : Grammar) (p : Progress) (arg : String) (value : Option String) : Progress :=
  if p.given.operands.length < g.operands.length then
    { p with given := { p.given with operands := p.given.operands ++ [value] }, fresh := true }
  else p.addExtra arg

/-- Takes what follows a divider. A further pair of dashes leaves its operand without a value. -/
def addRest (g : Grammar) (p : Progress) (args : List String) : Progress :=
  args.foldl (fun p arg => p.addOperand g arg (if arg = "--" then none else some arg)) p

/-- Takes a divider and what follows it. The divider goes with the operand before it or else with
the one after it; without either it is one argument too many. -/
def divide (g : Grammar) (p : Progress) (rest : List String) : Progress :=
  if p.fresh then p.addRest g rest
  else
    match rest with
    | arg :: rest =>
      if p.given.operands.length < g.operands.length then
        (p.addOperand g arg (some arg)).addRest g rest
      else (p.addExtra "--").addRest g (arg :: rest)
    | [] => p.addExtra "--"

end Progress

def Grammar.readFrom (g : Grammar) : Progress → List String → Except Refusal Progress
  | p, [] => .ok p
  | p, "--" :: rest => .ok (p.divide g rest)
  | p, arg :: rest =>
    match g.look arg with
    | .plain => g.readFrom (p.addOperand g arg (some arg)) rest
    | .help none => .error .help
    | .help (some value) => .error (ignored ("-h/" ++ helpName) value)
    | .unknown | .ambiguous _ => g.readFrom (p.addExtra arg) rest
    | .option o (some value) => do
      o.check value
      g.readFrom (p.addOption o.name value) rest
    | .option ⟨name, .flag, _, _⟩ none => g.readFrom (p.addOption name "") rest
    | .option o none =>
      match rest with
      | [] => .error (about o.name "expected one argument")
      | value :: rest =>
        match value, g.look value with
        | "--", _ => .error (about o.name "expected one argument")
        | _, .plain => do
          o.check value
          g.readFrom (p.addOption o.name value) rest
        | _, _ => .error (about o.name "expected one argument")

def Grammar.ambiguity? (g : Grammar) (args : List String) : Option Refusal :=
  (args.takeWhile (· != "--")).findSome? fun arg =>
    match g.look arg with
    | .ambiguous names => some (.mistake ("ambiguous option: " ++ arg ++ " could match " ++
        String.intercalate ", " names))
    | _ => none

def Grammar.missing (g : Grammar) (given : Given) : List String :=
  (g.operands.drop given.operands.length).map Operand.name ++
    (g.options.filter fun o => o.required && !given.options.any fun p => p.1 == o.name).map
      Switch.name

/-- Reads a command line. An ambiguous option is noticed before anything else. -/
def Grammar.read (g : Grammar) (args : List String) : Except Refusal Given := do
  if let some refusal := g.ambiguity? args then throw refusal
  let p ← g.readFrom .start args
  let missing := g.missing p.given
  if !missing.isEmpty then
    throw (.mistake ("the following arguments are required: " ++ String.intercalate ", " missing))
  if !p.extras.isEmpty then
    throw (.mistake ("unrecognized arguments: " ++ String.intercalate " " p.extras))
  return p.given

namespace Given

def has (g : Given) (name : String) : Bool := g.options.any fun p => p.1 == name

def value? (g : Given) (name : String) : Option String :=
  (g.options.reverse.find? fun p => p.1 == name).map Prod.snd

def operand? (g : Given) (i : Nat) : Option String := ((g.operands)[i]?).join

/-- The operand at a place where no divider can stand. -/
def operand (g : Given) (i : Nat) : String := (g.operand? i).getD ""

end Given

end Workbench.CommandLine
