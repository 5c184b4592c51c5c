import Workbench.Data.Yaml.Reader
import Workbench.Proofs.Flow.Indexing
import Workbench.Proofs.Flow.Tour

/-!
# Settings by another name

A run reads its settings under the default name first. If the command line names another file then
the settings are asked for once more under that name, but the first reading counts for the whole
session. So the entry of a function carries what the default settings say, and a description from
another file comes in only where the default settings say the same.
-/

namespace Workbench.Flow

/-! ## Readings of one session -/

theorem Settings.seek_of_find? {home : Home} {files : Files} {names : List String} {name text : String}
    {v : Value} (hfind : names.find? (fun q => (text? home files q).isSome) = some name)
    (htext : text? home files name = some (.ok text)) (hread : home.read name text = .ok v) :
    seek home files names = ([], v) := by
  induction names with
  | nil => cases hfind
  | cons q names ih =>
    unfold seek
    cases hq : text? home files q with
    | none =>
      rw [List.find?_cons_of_neg (by simp [hq])] at hfind
      exact ih hfind
    | some found =>
      rw [List.find?_cons_of_pos (by simp [hq])] at hfind
      obtain rfl := Option.some.inj hfind
      obtain rfl := Option.some.inj (hq.symm.trans htext)
      dsimp only [parse]
      rw [hread]

namespace Settings.Cell

/-- The settings of a session after some readings, each with its files and its name. -/
def after (home : Home) : Settings.Cell → List (Files × String) → Settings.Cell
  | cell, [] => cell
  | cell, (files, name) :: readings => after home (cell.read home files name).2.2 readings

variable {cell : Settings.Cell} {v : Value} {home : Home}

theorem shared_after (h : cell.shared = some v) (readings : List (Files × String)) :
    (after home cell readings).shared = some v := by
  induction readings generalizing cell with
  | nil => exact h
  | cons r readings ih =>
    rw [after, read_of_shared h]
    exact ih rfl

theorem read_after (files : Files) (name : String) (readings : List (Files × String))
    (files' : Files) (name' : String) :
    ((after home fresh ((files, name) :: readings)).read home files' name').2.1 =
      (load home files name).2 := by
  have hfirst : (fresh.read home files name).2.2.shared = some (load home files name).2 := rfl
  rw [after, read_of_shared (shared_after hfirst readings)]

end Settings.Cell

/-! ## The entry of a function -/

/-- The entry of the graph carries a description. -/
def Graph.Describes (g : Graph) (v : Value) : Prop :=
  ∃ e : Node, g.entry = some e.id ∧ g.node? e.id = some e ∧ e.description = v

theorem Graph.Describes.unique {g : Graph} {v v' : Value} (h : g.Describes v) (h' : g.Describes v') :
    v = v' := by
  obtain ⟨e, he, hn, rfl⟩ := h
  obtain ⟨e', he', hn', rfl⟩ := h'
  rw [Option.some.inj (he'.symm.trans he), hn] at hn'
  rw [Option.some.inj hn']

section
variable {dialect : Dialect} {code : Bytes} {settings v : Value} {t : Tree} {g : Graph} {name : String}

/-- The entry of a function carries what the settings say about its name. -/
theorem describes_of_graphOf (hname : Tree.fieldText code "name" t.children = .ok name)
    (h : graphOf dialect code (some settings) t = .ok g) :
    ∃ v, g.Describes v ∧ Settings.description settings name = .ok v := by
  obtain ⟨d, hd, rfl⟩ := graphOf_eq_ok h
  obtain ⟨f, title, name', v, hname', hv, hr⟩ := run_of_draft hd
  obtain rfl : name = name' := Except.ok.inj (hname.symm.trans hname')
  have hat := f.at_opened title name v
  obtain ⟨hnum, hg⟩ := hr.grows hat.sound.numbered hat.sound.has_exit
  refine ⟨v, ⟨f.entry title name v, hg.entry.trans (f.entry_opened title name v),
    hnum.node?_of_has (hg.has hat.footing.has), rfl⟩, ?_⟩
  unfold describe at hv
  dsimp only at hv
  split at hv
  next w hw => rw [hw, Except.ok.inj hv]
  next => cases hv

theorem exists_describes_iff (hname : Tree.fieldText code "name" t.children = .ok name) :
    (∃ g, graphOf dialect code (some settings) t = .ok g ∧ g.Describes v) ↔
      (graphOf dialect code (some settings) t).isOk ∧ Settings.description settings name = .ok v := by
  constructor
  · rintro ⟨g, hg, hdescribes⟩
    obtain ⟨w, hown, hw⟩ := describes_of_graphOf hname hg
    rw [hg, hw, hown.unique hdescribes]
    exact ⟨rfl, rfl⟩
  · rintro ⟨hok, hsaid⟩
    cases hg : graphOf dialect code (some settings) t with
    | error f =>
      rw [hg] at hok
      cases hok
    | ok g =>
      obtain ⟨w, hown, hw⟩ := describes_of_graphOf hname hg
      obtain rfl := Except.ok.inj (hw.symm.trans hsaid)
      exact ⟨g, rfl, hown⟩

end

namespace Command

open Session

variable {tools : Toolchain} {settings : Value} {request : Request} {project : Option String}
  {source : Source} {target : Tree} {files : Files} {file : String} {d : Desk}

/-! ## Single functions -/

/-- The function that is drawn: the first, or the first of the name in focus. All functions in front
of it have names that can be read. -/
def chosen? (request : Request) (source : Source) : List Tree → Option Tree
  | [] => none
  | t :: ts =>
    match request.focus with
    | none => some t
    | some name =>
      match t.child? "name" with
      | none => none
      | some n =>
        match n.text source.code with
        | .error _ => none
        | .ok text => if text = name then some t else chosen? request source ts

theorem onDesk_choose {l : List Tree} (h : chosen? request source l = some target) :
    ∃ text, ∀ d, (choose request source l).onDesk d = (.ok target, d.plus text) := by
  induction l with
  | nil => cases h
  | cons t ts ih =>
    unfold chosen? at h
    unfold choose
    cases hfocus : request.focus with
    | none =>
      rw [hfocus] at h
      obtain rfl := Option.some.inj h
      exact ⟨_, fun d => onDesk_bind_of_ok (onDesk_say _)⟩
    | some name =>
      rw [hfocus] at h
      dsimp only at h ⊢
      cases hn : t.child? "name" with
      | none =>
        rw [hn] at h
        cases h
      | some n =>
        rw [hn] at h
        dsimp only at h ⊢
        cases htext : n.text source.code with
        | error f =>
          rw [htext] at h
          cases h
        | ok text =>
          rw [htext] at h
          dsimp only at h ⊢
          split at h
          next heq =>
            obtain rfl := Option.some.inj h
            refine ⟨"", fun d => ?_⟩
            rw [if_pos heq, Desk.plus_empty]
            rfl
          next hne =>
            obtain ⟨said, hsaid⟩ := ih h
            refine ⟨said, fun d => ?_⟩
            rw [if_neg hne]
            exact hsaid d

def publish (tools : Toolchain) (request : Request) (project : Option String) (file : String)
    (graph : Graph) : Session Fault Unit := do
  ensureFolder (outputFolder file)
  if request.format ≠ .picture then listGraph file graph
  if request.format ≠ .lisp then depictGraph tools request project file graph

def render (tools : Toolchain) (settings : Value) (request : Request) (project : Option String)
    (file : String) (source : Source) (target : Tree) : Session Fault Unit :=
  demand .draw (graphOf source.dialect source.code (some settings) target) >>=
    publish tools request project file

theorem onDesk_processFile_of_chosen (hsource : (tools.parser.load d.files file).2 = .ok source)
    (ht : chosen? request source (functions source.dialect source.tree) = some target) :
    ∃ text, (processFile tools settings request project file).onDesk d =
      (render tools settings request project file source target).onDesk (d.plus text) := by
  obtain ⟨said, hchoose⟩ := onDesk_choose ht
  unfold processFile
  rw [onDesk_bind_of_ok (onDesk_say _), onDesk_bind_of_ok onDesk_files, Desk.files_plus]
  rcases hload : tools.parser.load d.files file with ⟨notes, result⟩
  rw [hload] at hsource
  dsimp only at hsource ⊢
  rw [hsource, onDesk_bind_of_ok (onDesk_forM_say notes)]
  dsimp only
  cases hfound : functions source.dialect source.tree with
  | nil =>
    rw [hfound] at ht
    cases ht
  | cons t ts =>
    rw [hfound] at hchoose
    simp only [List.isEmpty_cons, Bool.false_eq_true, if_false]
    rw [onDesk_bind_of_ok (hchoose _), Desk.plus_plus, Desk.plus_plus]
    exact ⟨_, rfl⟩

theorem onDesk_process_of_file {content : Bytes}
    (h : d.files.find? (fullName d.files request.path) = some (.file content)) :
    (process tools settings request).onDesk d =
      (processFile tools settings request none (fullName d.files request.path)).onDesk d := by
  unfold process
  rw [onDesk_bind_of_ok onDesk_files]
  dsimp only
  rw [h]

/-! ## Runs with a settings file of their own -/

/-- The command line names a settings file, other than the default one, that holds a table of
descriptions. It is the first of the name in the places where such files are looked for. -/
structure Customized (home : Home) (files : Files) (args : List String) (given : CommandLine.Given)
    (name place text : String) (fields table : Fields) : Prop where
  reads : commandLine.read args = .ok given
  named : given.value? "--config" = some name
  other : name ≠ Settings.defaultName
  found : (Settings.places home name).find? (fun q => (Settings.text? home files q).isSome) = some place
  legible : Settings.text? home files place = some (.ok text)
  parsed : home.read place text = .ok (.dict fields)
  described : Fields.get? "descriptions" fields = some (.dict table)

/-- A file is asked for that can be parsed, and one of its functions is chosen. -/
structure Picks (tools : Toolchain) (files : Files) (request : Request) (source : Source)
    (target : Tree) : Prop where
  file : ∃ content, files.find? (fullName files request.path) = some (.file content)
  parsed : (tools.parser.load files (fullName files request.path)).2 = .ok source
  chosen : chosen? request source (functions source.dialect source.tree) = some target

section
variable {args : List String} {given : CommandLine.Given} {name place text : String}
  {fields table : Fields}

theorem Customized.description {home : Home}
    (h : Customized home files args given name place text fields table) (s : String) :
    Settings.description (Settings.load home files name).2 s =
      .ok ((Fields.get? s table).getD (.str "")) := by
  unfold Settings.load
  rw [Settings.seek_of_find? h.found h.legible h.parsed]
  unfold Settings.description lookUp
  simp only [h.described, Option.getD_some]
  rfl

theorem Picks.on_run (hp : Picks tools files (.ofGiven given) source target)
    (hread : commandLine.read args = .ok given) : ∃ text, (run tools args).on files =
      (render tools (settingsOf tools files) (.ofGiven given) none (fullName files (given.operand 0))
        source target).onDesk ⟨files, text, "", [], 0⟩ := by
  obtain ⟨content, hfile⟩ := hp.file
  rw [Command.on_run hread]
  generalize printed (Settings.load tools.home files Settings.defaultName).1 = text
  have hprocess := @onDesk_process_of_file tools (settingsOf tools files) (.ofGiven given)
    ⟨files, text, "", [], 0⟩ content hfile
  obtain ⟨more, hmore⟩ := @onDesk_processFile_of_chosen tools (settingsOf tools files)
    (.ofGiven given) none source target (fullName files (given.operand 0)) ⟨files, text, "", [], 0⟩
    hp.parsed hp.chosen
  rw [hprocess]
  exact ⟨_, hmore⟩

/-- However often settings were read since the default ones, a reading by the name of another file gives
the default ones, and they are those that a run draws with, whatever file it names: the entry carries
what they say about the function. It carries what the file says exactly if a graph is drawn and the
two say the same. -/
theorem config_describes_entry_iff
    (hc : Customized tools.home files args given name place text fields table)
    (hp : Picks tools files (.ofGiven given) source target) :
    let settings := settingsOf tools files
    (∀ readings, ((Settings.Cell.after tools.home .fresh ((files, Settings.defaultName) :: readings)).read
        tools.home files name).2.1 = settings) ∧
      (∃ text, (run tools args).on files =
        (process tools settings (.ofGiven given)).onDesk ⟨files, text, "", [], 0⟩) ∧
      (∃ text, (run tools args).on files =
        (render tools settings (.ofGiven given) none (fullName files (given.operand 0)) source
          target).onDesk ⟨files, text, "", [], 0⟩) ∧
      ∀ s, Tree.fieldText source.code "name" target.children = .ok s →
        let drawn := graphOf source.dialect source.code (some settings) target
        (∀ graph, drawn = .ok graph →
          ∃ v, graph.Describes v ∧ Settings.description settings s = .ok v) ∧
        ((∃ graph, drawn = .ok graph ∧ graph.Describes ((Fields.get? s table).getD (.str ""))) ↔
          drawn.isOk ∧ Settings.description settings s =
            Settings.description (Settings.load tools.home files name).2 s) := by
  intro settings
  refine ⟨fun readings => Settings.Cell.read_after files Settings.defaultName readings files name,
    ⟨_, on_run hc.reads⟩, hp.on_run hc.reads,
    fun s hs => ⟨fun graph hgraph => describes_of_graphOf hs hgraph, ?_⟩⟩
  rw [hc.description s]
  exact exists_describes_iff hs

end

def describedText : String := "\x7b\"descriptions\": \x7b\"g\": \"custom\"\x7d\x7d"

def describedFiles : Files :=
  ⟨"/w", [(["b.py"], .file (Utf8.encode "def g():\n    c()\n")),
    (["my.yaml"], .file (Utf8.encode describedText))]⟩

def describedTools : Toolchain where
  parser := shortTools.parser
  dot := .missing
  home := ⟨⟨"/tool", [(["logic_config.yaml"],
    .file (Utf8.encode "\x7b\"descriptions\": \x7b\"g\": \"usual\"\x7d\x7d"))]⟩, "/tool", Yaml.read⟩

def describedArgs : List String := ["b.py", "--config", "my.yaml"]

def describedGiven : CommandLine.Given := ⟨[some "b.py"], [("--config", "my.yaml")]⟩

def describedFunction : Tree :=
  .node "function_definition" 0 16 none
    [.node "identifier" 4 5 (some "name") [], .node "block" 13 16 (some "body") []]

def describedSource : Source :=
  ⟨.suites, Utf8.encode "def g():\n    c()\n", .node "module" 0 17 none [describedFunction]⟩

/-- The description that the file gives is lost: the entry has the one of the default settings. -/
theorem customDescription_lost :
    Customized describedTools.home describedFiles describedArgs describedGiven "my.yaml" "my.yaml"
        describedText [("descriptions", .dict [("g", .str "custom")])] [("g", .str "custom")] ∧
      Picks describedTools describedFiles (.ofGiven describedGiven) describedSource describedFunction ∧
      ∃ graph, graphOf .suites describedSource.code (some (settingsOf describedTools describedFiles))
          describedFunction = .ok graph ∧ graph.Describes (.str "usual") ∧
        ¬ graph.Describes (.str "custom") := by
  have hc : Customized describedTools.home describedFiles describedArgs describedGiven "my.yaml"
      "my.yaml" describedText [("descriptions", .dict [("g", .str "custom")])]
      [("g", .str "custom")] := {
    reads := rfl
    named := rfl
    other := by decide
    found := by decide +kernel
    legible := by rfl
    parsed := by rfl
    described := rfl }
  have hp : Picks describedTools describedFiles (.ofGiven describedGiven) describedSource
      describedFunction := {
    file := ⟨Utf8.encode "def g():\n    c()\n", by decide +kernel⟩
    parsed := by rfl
    chosen := rfl }
  have hname : Tree.fieldText describedSource.code "name" describedFunction.children = .ok "g" := by
    decide +kernel
  have hdefault : Settings.description (settingsOf describedTools describedFiles) "g" =
      .ok (.str "usual") := by rfl
  have hdrawn : (graphOf .suites describedSource.code (some (settingsOf describedTools describedFiles))
      describedFunction).isOk = true := by decide +kernel
  obtain ⟨-, -, -, hfunction⟩ := config_describes_entry_iff hc hp
  obtain ⟨hentry, hiff⟩ := hfunction "g" hname
  cases hgraph : graphOf .suites describedSource.code (some (settingsOf describedTools describedFiles))
      describedFunction with
  | error f =>
    rw [hgraph] at hdrawn
    cases hdrawn
  | ok graph =>
    obtain ⟨v, hv, hsaid⟩ := hentry graph hgraph
    obtain rfl := Except.ok.inj (hdefault.symm.trans hsaid)
    refine ⟨hc, hp, graph, rfl, hv, fun hcustom => ?_⟩
    have hsame := (hiff.1 ⟨graph, hgraph, hcustom⟩).2
    rw [hdefault, hc.description "g"] at hsame
    simp [Fields.get?] at hsame

end Command

end Workbench.Flow
