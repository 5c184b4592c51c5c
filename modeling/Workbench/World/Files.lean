import Workbench.Text.Half
import Workbench.Text.Utf8
import Workbench.World.Path

/-!
# Files

The folder in which a tool runs, as a value: every folder and file below it with its content.
Operations name files as a user would; a name is followed part by part, so a missing folder or a
file in the middle of it is noticed.
-/

namespace Workbench

inductive Item where
  | folder
  | file (content : Bytes)
deriving DecidableEq

inductive FileFault where
  | notFound
  | isFolder
  -- a file stands where a folder is needed
  | notFolder
  -- something else has the name already
  | taken
  | tooLong
  -- a name holds the character zero
  | badName
  -- a name or a text holds half of a character
  | unencodable
deriving DecidableEq, Repr

abbrev Place := List String

structure Files where
  root : String
  -- everything below it, in the order in which folders are listed; a folder comes before what it
  -- holds
  items : List (Place × Item)

namespace Files

/-! ## Names -/

/-- Whether a character stands for a byte that is no text; names may hold such bytes. -/
def isRawByte (c : Char) : Bool :=
  match Half.of? c with
  | some h => 0xDC80 ≤ h && h < 0xDD00
  | none => false

def byteLength (name : String) : Nat :=
  name.toList.foldl (fun n c => n + if isRawByte c then 1 else (Utf8.encodeChar c).length) 0

def nameLimit : Nat := 4095

def partLimit : Nat := 255

def checkName (name : String) : Except FileFault Unit :=
  if name.toList.any fun c => (Half.of? c).isSome && !isRawByte c then .error .unencodable
  else if name.toList.contains '\x00' then .error .badName
  else if name = "" then .error .notFound
  else if nameLimit < byteLength name then .error .tooLong
  else .ok ()

/-- The parts of a name below the working folder; `none` if it leads elsewhere. -/
def partsBelow (files : Files) (name : String) : Option (List String) :=
  let full := files.root.toList
  let cs := name.toList
  if cs = full then some []
  else if (full ++ ['/']).isPrefixOf cs then
    some (PathName.parts (String.ofList (cs.drop (full.length + 1))))
  else if PathName.isAbsolute name then none
  else some (PathName.parts name)

def partsOf (files : Files) (name : String) : Except FileFault (List String) := do
  checkName name
  match files.partsBelow name with
  | none => throw .notFound
  | some ps => return ps

/-! ## Places -/

def item? (files : Files) (place : Place) : Option Item :=
  if place.isEmpty then some .folder
  else (files.items.find? fun p => p.1 == place).map Prod.snd

def enter (files : Files) (place : Place) : Except FileFault Unit :=
  match files.item? place with
  | none => .error .notFound
  | some (.file _) => .error .notFolder
  | some .folder => .ok ()

def move (place : Place) (part : String) : Except FileFault Place :=
  if part = "" ∨ part = "." then .ok place
  else if part = ".." then (if place.isEmpty then .error .notFound else .ok place.dropLast)
  else if partLimit < byteLength part then .error .tooLong
  else .ok (place ++ [part])

/-- Follows parts one by one. Each is looked up in a folder that exists. -/
def follow (files : Files) : Place → List String → Except FileFault Place
  | place, [] => .ok place
  | place, p :: ps => do
    files.enter place
    files.follow (← move place p) ps

def locate (files : Files) (name : String) : Except FileFault Place := do
  files.follow [] (← files.partsOf name)

/-- What a new item is called: the folder it goes into and its name there. -/
structure Slot where
  folder : Place
  name : String
  -- whether slashes follow the name
  slashed : Bool

/-- Finds the folder that a name leads into. The last part of the name is not looked up. -/
def slot (files : Files) (name : String) : Except FileFault Slot := do
  let parts ← files.partsOf name
  let kept := (parts.reverse.dropWhile (· == "")).reverse
  let folder ← files.follow [] kept.dropLast
  files.enter folder
  return ⟨folder, kept.getLast?.getD "", kept.length < parts.length⟩

def Slot.isOwn (s : Slot) : Bool := s.name == "" || s.name == "." || s.name == ".."

/-! ## Looking -/

def look (files : Files) (name : String) : Except FileFault Item := do
  match files.item? (← files.locate name) with
  | none => throw .notFound
  | some item => return item

def find? (files : Files) (name : String) : Option Item := (files.look name).toOption

def has (files : Files) (name : String) : Bool := (files.find? name).isSome

def isFolder (files : Files) (name : String) : Bool := files.find? name == some .folder

def isFile (files : Files) (name : String) : Bool :=
  match files.find? name with
  | some (.file _) => true
  | _ => false

/-- What a path leads to, if anything. Only a path that is too long is a fault. -/
def present? (files : Files) (path : Path) : Except FileFault (Option Item) :=
  match files.look path.toString with
  | .ok item => .ok (some item)
  | .error .tooLong => .error .tooLong
  | .error _ => .ok none

def read (files : Files) (name : String) : Except FileFault Bytes := do
  match ← files.look name with
  | .folder => throw .isFolder
  | .file content => return content

def entries (files : Files) (place : Place) : List (String × Item) :=
  files.items.filterMap fun (p, item) =>
    match p.getLast? with
    | some name => if p.dropLast = place then some (name, item) else none
    | none => none

/-! ## Changing -/

def set (files : Files) (place : Place) (item : Item) : Files :=
  if files.items.any fun p => p.1 == place then
    { files with items := files.items.map fun p => if p.1 == place then (place, item) else p }
  else { files with items := files.items ++ [(place, item)] }

def write (files : Files) (name : String) (content : Bytes) : Except FileFault Files := do
  let slot ← files.slot name
  if slot.isOwn || slot.slashed then throw .isFolder
  let place ← move slot.folder slot.name
  match files.item? place with
  | some .folder => throw .isFolder
  | _ => return files.set place (.file content)

def makeFolder (files : Files) (name : String) : Except FileFault Files := do
  let slot ← files.slot name
  if slot.isOwn then throw .taken
  let place ← move slot.folder slot.name
  if (files.item? place).isSome then throw .taken
  return files.set place .folder

/-- A change in several steps. What was done before a fault stays. -/
abbrev Change := ExceptT FileFault (StateM Files)

namespace Change

def step (f : Files → Except FileFault Files) : Change Unit := do
  match f (← get) with
  | .ok files => modify fun _ => files
  | .error e => throw e

/-- Writes a text into a file. One that has no bytes leaves the file empty. -/
def writeText (name text : String) : Change Unit :=
  if Half.occursIn text then do
    step (·.write name [])
    throw .unencodable
  else step (·.write name (Utf8.encode text))

def settle (name : String) : Change Unit := do
  try step (·.makeFolder name)
  catch e => unless (← get).isFolder name do throw e

/-- Makes the folder of a path given by its parts in reverse, and those above it where they are
missing. -/
def ensureFrom (origin : Origin) : List String → Change Unit
  | [] => settle (origin.name [])
  | part :: above => do
    let name := origin.name (part :: above).reverse
    try settle name
    catch e =>
      if e = .notFound then
        ensureFrom origin above
        settle name
      else throw e

def ensure (path : Path) : Change Unit := ensureFrom path.origin path.parts.reverse

def cutName (name : String) : String × String :=
  let whole := (name.toList.reverse.dropWhile (· == '/')).reverse
  let name := if PathName.base name = "" then String.ofList whole else name
  (PathName.folder name, PathName.base name)

/-- Makes a folder, and those above it that are missing, in at most so many steps. A name that ends
in a point is done with the folder before it. If `again`, the folder may be there already. -/
def makeAllFrom (again : Bool) : Nat → String → Change Unit
  | 0, _ => throw .notFound
  | steps + 1, name => do
    let (head, tail) := cutName name
    let above := head != "" && tail != "" && !(← get).has head
    if above then
      try makeAllFrom again steps head
      catch e => unless e = .taken do throw e
    unless above && tail == "." do
      if again then settle name else step (·.makeFolder name)

def makeAll (again : Bool) (name : String) : Change Unit := makeAllFrom again (name.length + 1) name

end Change

end Files

end Workbench
