import Mathlib.Data.List.TakeWhile
import Workbench.Proofs.World.Session
import Workbench.Split.Batch

/-!
# Nothing happens before the gate

The analyzer and the batch tool ask git before they do anything. Unless everything is committed, they
end there with an exit code, and all that is left of the run is what it printed. Behind the gate
nothing ends a run with an exit code any more.
-/

namespace Workbench

theorem Text.strip_eq_nil_iff {s : List Char} : Text.strip s = [] ↔ ∀ c ∈ s, isBlank c = true := by
  unfold strip stripBy
  rw [List.reverse_eq_nil_iff, List.dropWhile_eq_nil_iff]
  constructor
  · intro h
    by_contra hs
    -- the first character that is left is no blank
    have hne : s.dropWhile isBlank ≠ [] := fun hnil => hs (List.dropWhile_eq_nil_iff.mp hnil)
    have hhead := List.head_dropWhile_not isBlank hne
    rw [h _ (List.mem_reverse.mpr (List.head_mem hne))] at hhead
    cases hhead
  · intro h
    simp [List.dropWhile_eq_nil_iff.mpr h]

/-! ## Sessions without exit codes -/

namespace Session

variable {ε σ α β : Type}

def Stays (x : Session ε α) : Prop := ∀ d code, (x.onDesk d).1 ≠ .error (.exit code)

theorem Stays.pure (a : α) : (pure a : Session ε α).Stays := by
  intro d code h
  cases h

theorem Stays.fail (e : ε) : (fail e : Session ε α).Stays := by
  intro d code h
  cases h

theorem Stays.files : (files : Session ε Files).Stays := by
  intro d code h
  cases h

theorem Stays.say (line : String) : (say line : Session ε Unit).Stays := by
  intro d code h
  cases h

theorem Stays.print (text : String) : (print text : Session ε Unit).Stays := by
  intro d code h
  cases h

theorem Stays.apart (x : Session σ β) : (apart x : Session ε (Aside σ β)).Stays := by
  intro d code h
  cases h

theorem Stays.demand (lift : σ → ε) (r : Except σ α) : (demand lift r).Stays := by
  cases r with
  | ok a => exact .pure a
  | error e => exact .fail (lift e)

theorem Stays.change (lift : FileFault → ε) (c : Files.Change Unit) : (change lift c).Stays := by
  intro d code
  rw [onDesk_change]
  cases (c.on d.files).1 <;> simp [Except.mapError]

theorem Stays.bind {x : Session ε α} {f : α → Session ε β} (hx : x.Stays) (hf : ∀ a, (f a).Stays) :
    (x >>= f).Stays := by
  intro d code
  have hfirst := hx d code
  rw [onDesk_bind]
  cases hd : x.onDesk d with
  | mk result d₁ =>
    rw [hd] at hfirst
    cases result with
    | error e => simpa using hfirst
    | ok a => exact hf a d₁ code

theorem Stays.mapM {f : α → Session ε β} (hf : ∀ a, (f a).Stays) (l : List α) : (l.mapM f).Stays := by
  induction l with
  | nil => exact .pure []
  | cons a l ih =>
    rw [List.mapM_cons]
    exact (hf a).bind fun b => ih.bind fun rest => .pure (b :: rest)

/-- The session prints something and ends with the exit code; it does nothing else. -/
def Stops (code : Nat) (x : Session ε α) : Prop :=
  ∀ d, ∃ text, x.onDesk d = (.error (.exit code), d.plus text)

variable {code : Nat}

theorem Stops.exit : (exit code : Session ε α).Stops code := by
  intro d
  exact ⟨"", by simp⟩

theorem Stops.bind {x : Session ε α} (f : α → Session ε β) (hx : x.Stops code) :
    (x >>= f).Stops code := by
  intro d
  obtain ⟨text, h⟩ := hx d
  exact ⟨text, by rw [onDesk_bind, h]⟩

theorem Stops.say {line : String} {f : Unit → Session ε α} (hf : (f ()).Stops code) :
    (say line >>= f).Stops code := by
  intro d
  obtain ⟨text, h⟩ := hf (d.plus (line ++ "\n"))
  exact ⟨line ++ "\n" ++ text, by rw [onDesk_bind_of_ok (onDesk_say line), h, Desk.plus_plus]⟩

theorem Stops.after {x : Session ε α} {f : α → Session ε β} {a : α}
    (hx : ∀ d, x.onDesk d = (.ok a, d)) (hf : (f a).Stops code) : (x >>= f).Stops code := by
  intro d
  rw [onDesk_bind_of_ok (hx d)]
  exact hf d

end Session

open Session

/-! ## The gate -/

namespace Git

variable {ε : Type} {git : Git} {d : Desk}

/-- Git finds a repository, and has nothing but blanks to say about changes in it. -/
def Clean (git : Git) : Prop :=
  git.repository = .inside ∧ ∃ text, git.status = .printed text ∧ ∀ c ∈ text.toList, isBlank c = true

theorem onDesk_isRepository_inside (h : git.repository = .inside) :
    (git.isRepository : Session ε Bool).onDesk d = (.ok true, d) := by
  unfold isRepository
  rw [h]
  rfl

theorem onDesk_hasChanges_printed {text : String} (h : git.status = .printed text) :
    (git.hasChanges : Session ε Bool).onDesk d = (.ok (!(Text.strip text.toList).isEmpty), d) := by
  unfold hasChanges
  rw [h]
  rfl

theorem onDesk_gate_of_clean (h : git.Clean) :
    ∃ text, (git.gate : Session ε Unit).onDesk d = (.ok (), d.plus text) := by
  obtain ⟨hinside, text, hstatus, hblank⟩ := h
  unfold gate
  rw [onDesk_bind_of_ok (onDesk_say _), onDesk_bind_of_ok (onDesk_isRepository_inside hinside)]
  simp only [if_true]
  rw [onDesk_bind_of_ok (onDesk_say _), onDesk_bind_of_ok (onDesk_hasChanges_printed hstatus),
    Text.strip_eq_nil_iff.mpr hblank]
  simp

theorem stops_gate_of_not_clean (h : ¬git.Clean) : (git.gate : Session ε Unit).Stops 1 := by
  unfold gate
  apply Stops.say
  cases hrepository : git.repository with
  | inside =>
    apply Stops.after fun d => onDesk_isRepository_inside hrepository
    simp only [if_true]
    apply Stops.say
    cases hstatus : git.status with
    | printed text =>
      have hblank : Text.strip text.toList ≠ [] := fun hnil =>
        h ⟨hrepository, text, hstatus, Text.strip_eq_nil_iff.mp hnil⟩
      have hchanges (d : Desk) : (git.hasChanges : Session ε Bool).onDesk d = (.ok true, d) := by
        rw [onDesk_hasChanges_printed hstatus]
        simp [hblank]
      apply Stops.after hchanges
      simp only [if_true]
      iterate 6 apply Stops.say
      exact Stops.exit.bind _
    | timeout =>
      unfold hasChanges
      rw [hstatus]
      exact .bind _ (.say .exit)
    | missing =>
      unfold hasChanges
      rw [hstatus]
      exact .bind _ (.say .exit)
  | outside =>
    have houtside (d : Desk) : (git.isRepository : Session ε Bool).onDesk d = (.ok false, d) := by
      unfold isRepository
      rw [hrepository]
      rfl
    apply Stops.after houtside
    simp only [Bool.false_eq_true, if_false]
    iterate 2 apply Stops.say
    exact Stops.exit.bind _
  | noGit =>
    unfold isRepository
    rw [hrepository]
    exact .bind _ (.say .exit)

end Git

/-! ## Behind the gate -/

namespace Survey.Command

theorem stays_keep (folder : Path) (name text : String) : (keep folder name text).Stays := by
  unfold keep
  exact (Stays.change _ _).bind fun _ => (Stays.change _ _).bind fun _ => .pure _

theorem onDesk_readValue {limits : Json.Limits} {name text : String} {value : Value} {d : Desk}
    (htext : d.files.strictText name = .ok text) (hvalue : Json.read limits text = .ok value) :
    (readValue limits name).onDesk d = (.ok value, d) := by
  unfold readValue
  rw [onDesk_bind_of_ok onDesk_files, htext]
  dsimp only
  rw [hvalue]
  rfl

end Survey.Command

namespace Split.Batch

theorem onDesk_survey {α : Type} {x : Session Survey.Fault α} {d : Desk} {a : α}
    (hx : x.on d.files = (.ok a, ⟨d.files, "", "", [], 0⟩)) : (survey x).onDesk d = (.ok a, d) := by
  unfold survey
  rw [onDesk_bind_of_ok (onDesk_apart x), onDesk_bind_of_ok (onDesk_print _), hx]
  simp

theorem stays_survey {α : Type} {x : Session Survey.Fault α} (hx : x.Stays) : (survey x).Stays := by
  intro d code
  unfold survey
  rw [onDesk_bind_of_ok (onDesk_apart x), onDesk_bind_of_ok (onDesk_print _)]
  have hstays : (x.on d.files).1 ≠ .error (.exit code) := hx ⟨d.files, "", "", [], 0⟩ code
  cases h : (x.on d.files).1 with
  | ok a => simp
  | error stop =>
    cases stop with
    | exit other =>
      intro heq
      cases heq
      exact hstays h
    | fault f => simp

theorem stays_splitWith (home language path : String) : (splitWith home language path).Stays := by
  unfold splitWith
  cases Survey.Language.ofWord? language with
  | none => exact .pure _
  | some l => exact (Stays.demand _ _).bind fun _ => (Stays.apart _).bind fun _ => .pure _

theorem stays_splitTarget (home : String) (target : Value) : (splitTarget home target).Stays := by
  unfold splitTarget
  apply (Stays.demand _ _).bind
  intro language
  apply (Stays.demand _ _).bind
  intro path
  apply (Stays.demand _ _).bind
  intro word
  cases word with
  | none => exact .pure _
  | some word =>
    cases path with
    | str name =>
      exact (stays_splitWith home word name).bind fun _ => (Stays.demand _ _).bind fun _ => .pure _
    | _ => exact .fail _

theorem stays_splitAll (home : String) (analysis : Value) (withWarnings : Bool) :
    (splitAll home analysis withWarnings).Stays :=
  (Stays.demand _ _).bind fun targets => .mapM (stays_splitTarget home) targets

end Split.Batch

/-! ## Runs -/

/-- Unless everything in the folder is committed, the run on these files ends with exit code 1, and the
files are as they were; otherwise, if the folder is there, it gets past the gate, and does not end with an
exit code. -/
structure Git.Guards {ε : Type} (git : Git) (folder : String) (files : Files) (run : Session ε Unit) :
    Prop where
  stops : ¬git.Clean → ∃ out, run.on files = (.error (.exit 1), ⟨files, out, "", [], 0⟩)
  passes : files.isFolder folder = true → git.Clean → ∀ code, (run.on files).1 ≠ .error (.exit code)

theorem Git.guards_of_gate {ε : Type} {git : Git} {folder : String} {files : Files}
    {run : Session ε Unit} {rest : Unit → Session ε Unit} {before : String}
    (hrun : run.on files = (git.gate >>= rest).onDesk ⟨files, before, "", [], 0⟩)
    (hrest : (rest ()).Stays) : git.Guards folder files run := by
  constructor
  · intro hgit
    obtain ⟨text, hstop⟩ := (stops_gate_of_not_clean hgit).bind rest ⟨files, before, "", [], 0⟩
    exact ⟨before ++ text, hrun.trans hstop⟩
  · intro _ hgit code
    obtain ⟨text, hpass⟩ := @onDesk_gate_of_clean ε git ⟨files, before, "", [], 0⟩ hgit
    rw [hrun, onDesk_bind_of_ok hpass]
    exact hrest _ code

theorem Survey.Command.guards_analyzer {around : Surroundings} {files : Files} {args : List String}
    {given : CommandLine.Given} (hgiven : analyzerLine.read args = .ok given)
    (hskip : given.has "--skip-git" = false) :
    let path := (given.value? "--path").getD "."
    (around.git path).Guards path files (analyzer around args) := by
  apply Git.guards_of_gate
  · refine (onDesk_bind_of_ok (onDesk_given_ok hgiven)).trans ?_
    simp only [hskip, Bool.false_eq_true, if_false]
    rfl
  · apply Stays.files.bind
    intro here
    apply (Stays.demand _ _).bind
    intro names
    apply Stays.files.bind
    intro here
    apply (Stays.demand _ _).bind
    intro analysis
    exact (stays_keep _ _ _).bind fun _ => .say _

theorem Split.Batch.guards_run {around : Survey.Surroundings} {home : String} {files : Files}
    {args : List String} {given : CommandLine.Given} {text : String} {value : Value}
    (hgiven : commandLine.read args = .ok given) (hskip : given.has "--skip-git" = false)
    (htext : files.strictText (Path.ofString (given.operand 0)).toString = .ok text)
    (hvalue : Json.read around.limits text = .ok value) :
    let folder := (Path.ofString (given.operand 0)).parent.toString
    (around.git folder).Guards folder files (run around home args) := by
  have hread : (Survey.Command.readValue around.limits (Path.ofString (given.operand 0)).toString).on
      files =
      (.ok value, ⟨files, "", "", [], 0⟩) :=
    Survey.Command.onDesk_readValue (d := ⟨files, "", "", [], 0⟩) htext hvalue
  apply Git.guards_of_gate
  · refine (onDesk_bind_of_ok (onDesk_given_ok hgiven)).trans ?_
    refine (onDesk_bind_of_ok (onDesk_survey (d := ⟨files, "", "", [], 0⟩) hread)).trans ?_
    simp only [hskip, Bool.false_eq_true, if_false]
    rfl
  · apply (stays_splitAll _ _ _).bind
    intro results
    apply (stays_survey (Survey.Command.stays_keep _ _ _)).bind
    intro kept
    exact (Stays.say _).bind fun _ => (Stays.apart _).bind fun _ => .print _

/-- No tool changes anything before git has been asked. Whatever the files are and whatever the
arguments ask for, short of not asking, the analyzer and the batch tool end with exit code 1 unless
everything is committed, and leave all files and folders as they were. The analyzer asks in the folder
that is to be surveyed, the batch tool in that of the analysis. -/
theorem Git.guards_runs (around : Survey.Surroundings) (files : Files) :
    (∀ args given, Survey.Command.analyzerLine.read args = .ok given →
      given.has "--skip-git" = false →
      let path := (given.value? "--path").getD "."
      (around.git path).Guards path files (Survey.Command.analyzer around args)) ∧
    (∀ home args given text value, Split.Batch.commandLine.read args = .ok given →
      given.has "--skip-git" = false →
      files.strictText (Path.ofString (given.operand 0)).toString = .ok text →
      Json.read around.limits text = .ok value →
      let folder := (Path.ofString (given.operand 0)).parent.toString
      (around.git folder).Guards folder files (Split.Batch.run around home args)) :=
  ⟨fun _ _ => Survey.Command.guards_analyzer, fun _ _ _ _ _ => Split.Batch.guards_run⟩

def uncommitted : Survey.Surroundings × Files :=
  (⟨fun _ => ⟨.inside, .printed " M a.py\n"⟩, fun _ => none, .none, ⟨2001, 2, 3, 4, 5, 6⟩⟩,
    ⟨"/w", [(["a.py"], .file (List.replicate 250 10)), (["a.json"], .file (Utf8.encode
      "\x7b\"critical_files\": [\x7b\"path\": \"a.py\", \"language\": \"python\"\x7d]\x7d"))]⟩)

theorem uncommitted_untouched :
    let (around, files) := uncommitted
    (∃ out, (Survey.Command.analyzer around ["--path=.", "--rec"]).on files =
      (.error (.exit 1), ⟨files, out, "", [], 0⟩)) ∧
    ∃ out, (Split.Batch.run around "." ["--include-warning", "a.json"]).on files =
      (.error (.exit 1), ⟨files, out, "", [], 0⟩) := by
  have hgit : ¬(uncommitted.1.git ".").Clean := by
    intro h
    obtain ⟨-, text, htext, hblank⟩ := h
    cases htext
    have hmark := hblank 'M' (by decide)
    revert hmark
    decide
  obtain ⟨hanalyzer, hbatch⟩ := Git.guards_runs uncommitted.1 uncommitted.2
  constructor
  · exact (hanalyzer _ ⟨[], [("--path", "."), ("--recursive", "")]⟩ rfl rfl).stops hgit
  · exact (hbatch "." _ ⟨[some "a.json"], [("--include-warning", "")]⟩ _ _ rfl rfl rfl rfl).stops hgit

end Workbench
