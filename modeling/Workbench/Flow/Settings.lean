import Workbench.Data.Value
import Workbench.World.Complaint
import Workbench.World.Session

/-!
# Settings

Descriptions and options for flow graphs. A settings file is looked for in the working folder, in the
folder that holds the tool and in the one above. The first reading counts for the whole session. A file
that cannot be read is passed over with a warning.
-/

namespace Workbench.Flow

/-- Where the tool stands, and how it reads the text of a settings file. -/
structure Home where
  -- what is on the disk apart from the working folder
  files : Files
  -- the full name of the folder that holds the tool
  folder : String
  -- the value of a file of a name with a text, or in words why there is none
  read : String → String → Except String Value

def Settings.defaultName : String := "logic_config.yaml"

def Settings.blank : Value := .dict [("descriptions", .dict [])]

/-! ## Reading -/

def Settings.places (home : Home) (name : String) : List String :=
  [name, PathName.join home.folder name, PathName.join (PathName.folder home.folder) name]

/-- The text of the file of a name, if there is something of the name. -/
def Settings.text? (home : Home) (files : Files) (name : String) : Option (Except ReadFault String) :=
  let full := PathName.join files.root name
  if files.has name then some (files.strictText name)
  else if home.files.has full then some (home.files.strictText full)
  else none

def Settings.parse (home : Home) (name : String) : Except ReadFault String → Except String Value
  | .error f => .error (f.message name)
  | .ok s => home.read name s

def Settings.seek (home : Home) (files : Files) : List String → Notes × Value
  | [] => ([], Settings.blank)
  | name :: names =>
    match Settings.text? home files name with
    | none => Settings.seek home files names
    | some text =>
      match Settings.parse home name text with
      | .ok v => ([], v)
      | .error problem =>
        let (notes, v) := Settings.seek home files names
        (("[!] Warning: Failed to load config " ++ name ++ ": " ++ problem) :: notes, v)

def Settings.load (home : Home) (files : Files) (name : String) : Notes × Value :=
  Settings.seek home files (Settings.places home name)

/-! ## Asking -/

/-- Why settings could not be asked: a value of this kind stands in place of a table. -/
structure NoTable where
  kind : String
deriving DecidableEq, Repr

def kindWord : Value → String
  | .null => "NoneType"
  | .bool _ => "bool"
  | .int _ => "int"
  | .float _ => "float"
  | .str _ => "str"
  | .list _ => "list"
  | .dict _ => "dict"

def lookUp (key : String) (default : Value) : Value → Except NoTable Value
  | .dict fields => .ok ((Fields.get? key fields).getD default)
  | v => .error ⟨kindWord v⟩

def Settings.description (settings : Value) (name : String) : Except NoTable Value := do
  lookUp name (.str "") (← lookUp "descriptions" (.dict []) settings)

def Settings.option (settings : Value) (key : String) (default : Value) : Except NoTable Value := do
  lookUp key default (← lookUp "settings" (.dict []) settings)

/-! ## Remembering -/

/-- The settings of a session. Once read, they stay until they are dropped. -/
structure Settings.Cell where
  -- those that the next reading will give
  shared : Option Value
  -- those that were read last
  held : Option Value

def Settings.Cell.fresh : Settings.Cell := ⟨none, none⟩

def Settings.Cell.read (cell : Settings.Cell) (home : Home) (files : Files) (name : String) :
    Notes × Value × Settings.Cell :=
  let (notes, v) := match cell.shared with
    | some v => ([], v)
    | none => Settings.load home files name
  (notes, v, ⟨some v, some v⟩)

def Settings.Cell.drop (cell : Settings.Cell) : Settings.Cell := ⟨.none, cell.held⟩

end Workbench.Flow
