import Workbench.Proofs.Split.Survey
import Workbench.Proofs.Survey.Gate
import Workbench.Proofs.World.Folders

/-!
# Parts that are written over

A batch splits one target after the other, and the parts of several targets can have one place. What
is found there in the end is what the last of them put down. So a target keeps its parts exactly if no
later one puts other lines in their places.
-/

namespace Workbench

/-! ## A name and nothing else -/

namespace CommandLine

variable {g : Grammar} {name : String}

theorem readFrom_single (hg : 0 < g.operands.length) {p : Progress}
    (h : g.readFrom .start [name] = .ok p) :
    p.given = ⟨[some name], []⟩ ∨ p.given.operands = [] := by
  unfold Grammar.readFrom at h
  split at h
  · next hnil => cases hnil
  · next hargs =>
    cases hargs
    cases h
    exact Or.inr rfl
  · next arg rest hdivider hargs =>
    cases hargs
    split at h
    · cases h
      left
      simp [Progress.addOperand, Progress.start, hg]
    · cases h
    · cases h
    · cases h
      exact Or.inr rfl
    · cases h
      exact Or.inr rfl
    · obtain ⟨_, -, h⟩ := bind_eq_ok_iff.mp h
      cases h
      exact Or.inr rfl
    · cases h
      exact Or.inr rfl
    · cases h

theorem read_single (hg : 0 < g.operands.length) {given : Given} (h : g.read [name] = .ok given) :
    given = ⟨[some name], []⟩ := by
  unfold Grammar.read at h
  split at h
  · cases h
  · obtain ⟨p, hp, h⟩ := bind_eq_ok_iff.mp h
    dsimp only at h
    split at h
    · cases h
    · next hmissing =>
      split at h
      · cases h
      · cases h
        cases readFrom_single hg hp with
        | inl hgiven => exact hgiven
        | inr hnone =>
          have hempty : g.missing p.given = [] := by simpa using hmissing
          rw [Grammar.missing, hnone] at hempty
          have hoperands : g.operands = [] := by simpa using (List.append_eq_nil_iff.1 hempty).1
          rw [hoperands] at hg
          exact absurd hg (Nat.lt_irrefl 0)

end CommandLine

namespace Split

open Survey (Language)
open Session

/-! ## What is put down -/

/-- The places of parts and their lines, in the order in which they are put down. -/
abbrev Deposits := List (Place × List String)

def Deposits.last? (ds : Deposits) (p : Place) : Option (List String) :=
  (ds.reverse.find? fun e => e.1 == p).map Prod.snd

theorem Deposits.last?_append (ds es : Deposits) (p : Place) :
    (ds ++ es).last? p = (es.last? p).or (ds.last? p) := by
  unfold last?
  rw [List.reverse_append, List.find?_append]
  cases es.reverse.find? fun e => e.1 == p <;> rfl

def Deposits.atop (ds : Deposits) (p : Place) (content : Bytes) : Bytes :=
  ((ds.last? p).map fun part => Utf8.encode (partText part)).getD content

theorem Deposits.atop_append (ds es : Deposits) (p : Place) (content : Bytes) :
    (ds ++ es).atop p content = es.atop p (ds.atop p content) := by
  unfold atop
  rw [last?_append]
  cases es.last? p <;> rfl

/-- Folders stay, and files change only by what is put down. -/
structure Receives (files : Files) (ds : Deposits) (files' : Files) : Prop where
  keeps : files.Keeps files'
  content : ∀ p c, files.item? p = some (.file c) → files'.item? p = some (.file (ds.atop p c))

theorem receives_of_spares {files files' : Files} (h : files.Spares files') :
    Receives files [] files' :=
  ⟨h.keeps, fun p c hp => h.items p (.file c) hp⟩

theorem Receives.refl (files : Files) : Receives files [] files :=
  receives_of_spares (.refl files)

theorem Receives.trans {files files' files'' : Files} {ds es : Deposits}
    (h : Receives files ds files') (h' : Receives files' es files'') :
    Receives files (ds ++ es) files'' := by
  refine ⟨h.keeps.trans h'.keeps, fun p c hp => ?_⟩
  rw [Deposits.atop_append]
  exact h'.content p _ (h.content p c hp)

theorem receives_of_write {files files' : Files} {name : String} {part : List String} {p : Place}
    (hspot : files.spot name = .ok p)
    (h : files.write name (Utf8.encode (partText part)) = .ok files') :
    Receives files [(p, part)] files' := by
  refine ⟨(Files.keeps_of_write h).1, fun q c hq => ?_⟩
  obtain ⟨r, hr, hitem, rfl⟩ := Files.write_eq_ok_iff.mp h
  have hpr : p = r := Except.ok.inj (hspot.symm.trans hr)
  subst hpr
  rw [Files.item?_set (Files.ne_nil_of_item? hitem)]
  by_cases hqp : q = p
  · simp [hqp, Deposits.atop, Deposits.last?]
  · have hpq : p ≠ q := fun e => hqp e.symm
    simp [hqp, hpq, hq, Deposits.atop, Deposits.last?]

/-! ## What one run puts down -/

/-- The parts that can be written, from a number on, up to the first that cannot. -/
def placed (files : Files) (language : Language) (source folder : Path) :
    Nat → List (List String) → Deposits
  | _, [] => []
  | number, part :: rest =>
    match files.spot (partPath language source folder number) with
    | .ok p =>
      if files.item? p = some .folder then []
      else (p, part) :: placed files language source folder (number + 1) rest
    | .error _ => []

section
variable {language : Language} {source folder : Path} {d : Desk}

theorem placed_congr {files files' : Files} (h : files.Keeps files') (h' : files'.Keeps files)
    (number : Nat) (parts : List (List String)) :
    placed files' language source folder number parts =
      placed files language source folder number parts := by
  induction parts generalizing number with
  | nil => rfl
  | cons part rest ih =>
    unfold placed
    rw [ih]
    cases hspot : files.spot (partPath language source folder number) with
    | ok p =>
      rw [h.spot hspot]
      have hitem : files'.item? p = some .folder ↔ files.item? p = some .folder :=
        ⟨h'.folders p, h.folders p⟩
      simp only [hitem]
    | error e =>
      cases hspot' : files'.spot (partPath language source folder number) with
      | ok p =>
        rw [h'.spot hspot'] at hspot
        cases hspot
      | error e' => rfl

theorem receives_writeParts (number : Nat) (parts : List (List String)) :
    Receives d.files (placed d.files language source folder number parts)
      ((writeParts language source folder number parts).onDesk d).2.files := by
  induction parts generalizing number d with
  | nil => exact .refl d.files
  | cons part rest ih =>
    rw [onDesk_writeParts_cons, placed]
    cases hw : d.files.write (partPath language source folder number)
        (Utf8.encode (partText part)) with
    | error e =>
      have hnone : ¬∃ p, d.files.spot (partPath language source folder number) = .ok p ∧
          d.files.item? p ≠ some .folder := by
        rw [← Files.exists_write_iff (Utf8.encode (partText part)), hw]
        rintro ⟨files, hfiles⟩
        cases hfiles
      cases hspot : d.files.spot (partPath language source folder number) with
      | error e' => exact .refl d.files
      | ok p =>
        have hitem : d.files.item? p = some .folder := by
          by_contra hitem
          exact hnone ⟨p, hspot, hitem⟩
        simp only [hitem, if_true]
        exact .refl d.files
    | ok files =>
      obtain ⟨p, hp, hitem, -⟩ := Files.write_eq_ok_iff.mp hw
      obtain ⟨hkeeps, hkept⟩ := Files.keeps_of_write hw
      rw [hp]
      simp only [hitem, if_false]
      rw [← placed_congr hkeeps hkept]
      exact (receives_of_write hp hw).trans (ih (d := { d with files := files }) (number + 1))

variable {name : String} {lines : List String}

def usualFolder (name : String) : Path := (Path.ofString name).parent.join "refactored"

def usualParts (language : Language) (lines : List String) : List (List String) :=
  cut (.of language) defaultLimit.toNat lines

def fileDeposits (files : Files) (language : Language) (name : String) (lines : List String) :
    Deposits :=
  if (lines.length : Int) ≤ defaultLimit then []
  else
    match (Files.Change.ensure (usualFolder name)).on files with
    | (.ok (), made) =>
      placed made language (.ofString name) (usualFolder name) 1 (usualParts language lines)
    | (.error _, _) => []

theorem receives_splitFile (h : Survey.sourceLines d.files (.ofString name) = .ok lines) :
    Receives d.files (fileDeposits d.files language name lines)
      ((splitFile language (.ofString name) defaultLimit "refactored").onDesk d).2.files := by
  rw [onDesk_splitFile h, fileDeposits]
  by_cases hlimit : (lines.length : Int) ≤ defaultLimit
  · rw [if_pos hlimit, if_pos hlimit]
    exact .refl d.files
  · have hadds := Files.Change.adds_ensure (usualFolder name) d.files
    rw [if_neg hlimit, if_neg hlimit, parts_eq_cut (by decide),
      onDesk_bind_of_ok (onDesk_demand_ok ..)]
    change Receives _ _ ((change _ (.ensure (usualFolder name)) >>= _).onDesk d).2.files
    rw [onDesk_bind, onDesk_change]
    rcases hensure : (Files.Change.ensure (usualFolder name)).on d.files with ⟨e | ⟨⟩, made⟩
    · rw [hensure] at hadds
      exact receives_of_spares hadds
    · rw [hensure] at hadds
      have hwrite := @receives_writeParts language (.ofString name) (usualFolder name)
        { d with files := made } 1 (usualParts language lines)
      have hall := (receives_of_spares hadds).trans hwrite
      simp only [Except.mapError]
      change Receives _ _ ((writeParts language (.ofString name) (usualFolder name) 1
        (usualParts language lines) >>= _).onDesk { d with files := made }).2.files
      rw [onDesk_bind]
      generalize (writeParts language (.ofString name) (usualFolder name) 1
        (usualParts language lines)).onDesk { d with files := made } = written at *
      rcases written with ⟨e | ⟨⟩, d'⟩
      · exact hall
      · exact hall

theorem files_splitFile {limit : Int} {folderName : String} {e : FileFault}
    (h : Survey.sourceLines d.files source = .error e) :
    ((splitFile language source limit folderName).onDesk d).2.files = d.files := by
  unfold splitFile
  rw [onDesk_bind_of_ok onDesk_files]
  cases d.files.present? source with
  | error e' => rfl
  | ok item =>
    rw [onDesk_bind_of_ok (onDesk_demand_ok ..)]
    cases item with
    | none => rfl
    | some item =>
      simp only [Option.isNone_some, Bool.false_eq_true, if_false]
      rw [onDesk_bind_of_ok onDesk_files, h]
      rfl

def toolDeposits (files : Files) (language : Language) (name : String) : Deposits :=
  match (commandLine language).read [name], Survey.sourceLines files (.ofString name) with
  | .ok _, .ok lines => fileDeposits files language name lines
  | _, _ => []

theorem on_run_single {given : CommandLine.Given}
    (h : (commandLine language).read [name] = .ok given) (files : Files) :
    (run language [name]).on files =
      (splitFile language (.ofString name) defaultLimit "refactored").onDesk ⟨files, "", "", [], 0⟩ := by
  rw [on_run h, CommandLine.read_single (g := commandLine language) Nat.zero_lt_one h]
  rfl

theorem receives_run (files : Files) (name : String) :
    Receives files (toolDeposits files language name)
      ((run language [name]).on files).2.files := by
  unfold toolDeposits
  cases hgiven : (commandLine language).read [name] with
  | error e =>
    have hsame : ((run language [name]).on files).2.files = files := by
      change ((given (commandLine language) [name] >>= _).onDesk _).2.files = files
      rw [onDesk_bind, given, hgiven]
      cases e with
      | help => rfl
      | mistake complaint => rfl
    rw [hsame]
    exact .refl files
  | ok given =>
    rw [on_run_single hgiven]
    cases hlines : Survey.sourceLines files (.ofString name) with
    | error e =>
      rw [@files_splitFile language (.ofString name) ⟨files, "", "", [], 0⟩ _ _ e hlines]
      exact .refl files
    | ok lines => exact @receives_splitFile language ⟨files, "", "", [], 0⟩ name lines hlines

/-! ## Parts are lines -/

theorem mem_of_mem_placed {files : Files} {number : Nat} {parts : List (List String)} {p : Place}
    {part : List String} (h : (p, part) ∈ placed files language source folder number parts) :
    part ∈ parts := by
  induction parts generalizing number with
  | nil => cases h
  | cons first rest ih =>
    unfold placed at h
    split at h
    · split at h
      · cases h
      · cases h with
        | head => exact List.mem_cons_self
        | tail _ h => exact List.mem_cons_of_mem first (ih h)
    · cases h

def Readable (part : List String) : Prop := part ≠ [] ∧ ∀ l ∈ part, Text.Unbroken l.toList

theorem readable_of_mem_usualParts {files : Files} {part : List String}
    (h : Survey.sourceLines files source = .ok lines) (hpart : part ∈ usualParts language lines) :
    Readable part := by
  refine ⟨ne_nil_of_mem_cut hpart, fun l hl => ?_⟩
  apply unbroken_of_sourceLines h
  rw [← flatten_cut (show 0 < defaultLimit.toNat by decide) (.of language) lines]
  exact List.mem_flatten_of_mem hpart hl

theorem readable_of_mem_toolDeposits {files : Files} {p : Place} {part : List String}
    (h : (p, part) ∈ toolDeposits files language name) : Readable part := by
  unfold toolDeposits at h
  split at h
  · next hlines =>
    unfold fileDeposits at h
    split at h
    · cases h
    · split at h
      · exact readable_of_mem_usualParts hlines (mem_of_mem_placed h)
      · cases h
  · cases h

end

/-! ## What a batch puts down -/

namespace Batch

variable {home : String} {d d' : Desk} {target value : Value}

def targetDeposits (files : Files) (target : Value) : Deposits :=
  match target.field? "language", target.field? "path" with
  | some (.str word), some (.str name) =>
    match Language.ofWord? word with
    | some language => toolDeposits files language name
    | none => []
  | _, _ => []

def batchDeposits (home : String) : Desk → List Value → Deposits
  | _, [] => []
  | d, target :: rest => targetDeposits d.files target ++
      batchDeposits home ((splitTarget home target).onDesk d).2 rest

theorem demand_eq_ok {ε σ α : Type} {lift : σ → ε} {x : Except σ α} {a : α}
    (h : (demand lift x : Session ε α).onDesk d = (.ok a, d')) : x = .ok a ∧ d' = d := by
  cases x with
  | error e => cases h
  | ok b =>
    cases h
    exact ⟨rfl, rfl⟩

theorem eq_getD_of_fieldOr {key : String} {missing v : Value}
    (h : target.fieldOr key missing = .ok v) : v = (target.field? key).getD missing := by
  cases target with
  | dict fields =>
    cases h
    rfl
  | _ => cases h

theorem field?_of_fieldOr {key : String} {missing v : Value}
    (h : target.fieldOr key missing = .ok v) (hv : v ≠ missing) : target.field? key = some v := by
  have hget := eq_getD_of_fieldOr h
  cases hfield : target.field? key with
  | none =>
    rw [hfield] at hget
    exact absurd hget hv
  | some w =>
    rw [hfield] at hget
    rw [hget]
    rfl

theorem supported?_none {v : Value} {word : String} (h : supported? v = .ok none)
    (hv : v = .str word) : Language.ofWord? word = none := by
  subst hv
  simpa [supported?] using h

theorem supported?_some {v : Value} {word : String} (h : supported? v = .ok (some word)) :
    v = .str word ∧ ∃ language, Language.ofWord? word = some language := by
  cases v with
  | str s =>
    have hs : ∃ language, Language.ofWord? s = some language ∧ s = word := by
      simpa [supported?] using h
    obtain ⟨language, hlanguage, rfl⟩ := hs
    exact ⟨rfl, language, hlanguage⟩
  | _ => cases h

def asideOf (language : Language) (name : String) (files : Files) : Aside Split.Fault Unit :=
  let (outcome, after) := (Split.run language [name]).on files
  ⟨outcome, after.out, after.complaints⟩

theorem splitWith_eq_ok {word name : String} {fields : Fields} {language : Language}
    (hword : Language.ofWord? word = some language)
    (h : (splitWith home word name).onDesk d = (.ok fields, d')) :
    d'.files = ((Split.run language [name]).on d.files).2.files ∧
      fields = [("file_path", .str name), ("language", .str word),
        ("status", .str (if (outcome (asideOf language name d.files)).1 then "success" else "failed")),
        ("message", .str (outcome (asideOf language name d.files)).2),
        ("script", .str (toolName home language))] := by
  unfold splitWith at h
  rw [hword] at h
  dsimp only at h
  obtain ⟨_, d₁, hcheck, hrun⟩ := onDesk_bind_eq_ok h
  obtain ⟨-, rfl⟩ := demand_eq_ok hcheck
  obtain ⟨run, d₂, happart, hend⟩ := onDesk_bind_eq_ok hrun
  rw [onDesk_apart] at happart
  cases happart
  cases hend
  exact ⟨rfl, rfl⟩

/-- A target is passed over, or the tool for its language runs on its path. -/
theorem splitTarget_cases (h : (splitTarget home target).onDesk d = (.ok value, d')) :
    (d' = d ∧ ∀ word, target.field? "language" = some (.str word) → Language.ofWord? word = none) ∨
      ∃ word name language rest, target.field? "language" = some (.str word) ∧
        target.field? "path" = some (.str name) ∧ Language.ofWord? word = some language ∧
        d'.files = ((Split.run language [name]).on d.files).2.files ∧
        value = .dict ([("file_path", .str name), ("language", .str word),
          ("status",
            .str (if (outcome (asideOf language name d.files)).1 then "success" else "failed")),
          ("message", .str (outcome (asideOf language name d.files)).2),
          ("script", .str (toolName home language))] ++ rest) := by
  unfold splitTarget at h
  obtain ⟨languageValue, d₁, hask₁, h₁⟩ := onDesk_bind_eq_ok h
  obtain ⟨hlanguage, rfl⟩ := demand_eq_ok hask₁
  obtain ⟨pathValue, d₂, hask₂, h₂⟩ := onDesk_bind_eq_ok h₁
  obtain ⟨hpath, rfl⟩ := demand_eq_ok hask₂
  obtain ⟨supported, d₃, hask₃, h₃⟩ := onDesk_bind_eq_ok h₂
  obtain ⟨hsupported, rfl⟩ := demand_eq_ok hask₃
  cases supported with
  | none =>
    cases h₃
    refine Or.inl ⟨rfl, fun word hword => ?_⟩
    have hget := eq_getD_of_fieldOr hlanguage
    rw [hword] at hget
    exact supported?_none hsupported hget
  | some word =>
    obtain ⟨rfl, language, hword⟩ := supported?_some hsupported
    have hlanguage := field?_of_fieldOr hlanguage (by rintro ⟨⟩; cases hword)
    dsimp only at h₃
    cases pathValue with
    | str name =>
      have hpath := field?_of_fieldOr hpath nofun
      obtain ⟨fields, d₄, hsplit, h₄⟩ := onDesk_bind_eq_ok h₃
      obtain ⟨lines, d₅, hask₅, h₅⟩ := onDesk_bind_eq_ok h₄
      obtain ⟨-, rfl⟩ := demand_eq_ok hask₅
      cases h₅
      obtain ⟨hfiles, hfields⟩ := splitWith_eq_ok hword hsplit
      rw [hfields]
      exact Or.inr ⟨word, name, language, _, hlanguage, hpath, hword, hfiles, rfl⟩
    | _ => cases h₃

theorem receives_splitTarget (h : (splitTarget home target).onDesk d = (.ok value, d')) :
    Receives d.files (targetDeposits d.files target) d'.files := by
  unfold targetDeposits
  obtain ⟨rfl, hnone⟩ | ⟨word, name, language, rest, hlanguage, hpath, hword, hfiles, -⟩ :=
    splitTarget_cases h
  · split
    · next word name hword _ =>
      rw [hnone word hword]
      exact .refl _
    · exact .refl _
  · rw [hlanguage, hpath, hfiles]
    dsimp only
    rw [hword]
    exact receives_run d.files name

theorem receives_mapM {targets values : List Value}
    (h : (targets.mapM (splitTarget home)).onDesk d = (.ok values, d')) :
    Receives d.files (batchDeposits home d targets) d'.files := by
  induction targets generalizing d values with
  | nil =>
    cases h
    exact .refl _
  | cons target rest ih =>
    rw [List.mapM_cons] at h
    obtain ⟨value, d₁, hvalue, h⟩ := onDesk_bind_eq_ok h
    obtain ⟨values, d₂, hvalues, h⟩ := onDesk_bind_eq_ok h
    cases h
    have hfirst := receives_splitTarget hvalue
    have hrest := ih hvalues
    rw [batchDeposits, hvalue]
    exact hfirst.trans hrest

theorem readable_of_mem_batchDeposits {targets : List Value} {p : Place} {part : List String}
    (h : (p, part) ∈ batchDeposits home d targets) : Readable part := by
  induction targets generalizing d with
  | nil => cases h
  | cons target rest ih =>
    cases List.mem_append.1 h with
    | inl h =>
      unfold targetDeposits at h
      split at h
      · split at h
        · exact readable_of_mem_toolDeposits h
        · cases h
      · cases h
    | inr h => exact ih h

/-! ## Reading parts after the batch -/

/-- The tool for a language, given a name and nothing else, splits a file with these lines. -/
structure Splits (files : Files) (language : Language) (name : String) (lines : List String) :
    Prop where
  accepted : ((Split.commandLine language).read [name]).isOk = true
  reads : Survey.sourceLines files (.ofString name) = .ok lines
  long : defaultLimit < lines.length

theorem linesIn_of_receives {files files' : Files} {ds : Deposits} {name : String}
    {part : List String} (h : Receives files ds files') (hread : linesIn files name = .ok part)
    (hds : ∀ p part, ds.last? p = some part → Readable part) :
    ∃ p, files'.locate name = .ok p ∧ linesIn files' name = .ok ((ds.last? p).getD part) := by
  cases hcontent : files.read name with
  | error e =>
    simp [linesIn, Files.strictText, hcontent, Except.map] at hread
  | ok content =>
    obtain ⟨p, hp, hitem⟩ := Files.read_eq_ok_iff.mp hcontent
    have hlocate := h.keeps.locate hp
    have hafter : files'.read name = .ok (ds.atop p content) :=
      Files.read_eq_ok_iff.mpr ⟨p, hlocate, h.content p content hitem⟩
    refine ⟨p, hlocate, ?_⟩
    cases hlast : ds.last? p with
    | some later =>
      obtain ⟨hne, hlines⟩ := hds p later hlast
      apply linesIn_of_read hne hlines
      rw [hafter, Deposits.atop, hlast]
      rfl
    | none =>
      rw [Deposits.atop, hlast] at hafter
      rw [Option.getD_none, ← hread]
      unfold linesIn Files.strictText
      rw [hafter, hcontent]
      rfl

theorem ok_of_fine {files : Files} {language : Language} {name : String}
    (hfine : (outcome (asideOf language name files)).1 = true)
    (hstays : ∀ code, ((Split.run language [name]).on files).1 ≠ .error (.exit code)) :
    ((Split.run language [name]).on files).1 = .ok () := by
  unfold outcome asideOf at hfine
  rcases hrun : (Split.run language [name]).on files with ⟨result, after⟩
  rw [hrun] at hfine hstays
  cases result with
  | ok => rfl
  | error stop =>
    cases stop with
    | exit code => exact absurd rfl (hstays code)
    | fault cause => cases hfine

theorem stays_writeParts {language : Language} {source folder : Path} (number : Nat)
    (parts : List (List String)) : (writeParts language source folder number parts).Stays := by
  induction parts generalizing number with
  | nil => exact .pure ()
  | cons part rest ih => exact .bind (.change _ _) fun _ => ih (number + 1)

/-- A tool that splits a file and is said to succeed has put its parts down. -/
theorem linesIn_of_success {files : Files} {language : Language} {name : String}
    {lines : List String} (hsplits : Splits files language name lines)
    (hfine : (outcome (asideOf language name files)).1 = true) (k : Nat)
    (hk : k < (usualParts language lines).length) :
    linesIn ((Split.run language [name]).on files).2.files
      (partPath language (.ofString name) (usualFolder name) (k + 1)) =
        .ok (usualParts language lines)[k] := by
  cases hgiven : (Split.commandLine language).read [name] with
  | error e =>
    have haccepted := hsplits.accepted
    rw [hgiven] at haccepted
    cases haccepted
  | ok given =>
    have hrun := on_run_single hgiven files
    have hdelivers := @delivers_splitFile language (.ofString name) "refactored" defaultLimit
      ⟨files, "", "", [], 0⟩ lines (Path.slash_not_mem_name _) (by decide) hsplits.reads hsplits.long
    rw [← hrun] at hdelivers
    refine hdelivers.reads (ok_of_fine hfine ?_) k hk
    intro code
    have hlong : ¬(lines.length : Int) ≤ defaultLimit := by
      have := hsplits.long
      omega
    rw [hrun, @onDesk_splitFile language (.ofString name) "refactored" defaultLimit
      ⟨files, "", "", [], 0⟩ lines hsplits.reads, if_neg hlong]
    refine Stays.bind (.demand _ _) (fun found => ?_) _ code
    exact .bind (.change _ _) fun _ => .bind (stays_writeParts 1 found) fun _ => .say _

theorem linesIn_of_splitTarget {language : Language} {name : String} {lines : List String}
    (h : (splitTarget home target).onDesk d = (.ok value, d'))
    (hlanguage : target.field? "language" = some (.str language.word))
    (hpath : target.field? "path" = some (.str name)) (hsplits : Splits d.files language name lines)
    (hsuccess : value.field? "status" = some (.str "success")) (k : Nat)
    (hk : k < (usualParts language lines).length) :
    linesIn d'.files (partPath language (.ofString name) (usualFolder name) (k + 1)) =
      .ok (usualParts language lines)[k] := by
  obtain ⟨-, hnone⟩ | ⟨word, name', language', rest, hlanguage', hpath', hword, hfiles, rfl⟩ :=
    splitTarget_cases h
  · have hsome := hnone language.word hlanguage
    rw [Language.ofWord?_word] at hsome
    cases hsome
  · cases hlanguage.symm.trans hlanguage'
    cases hpath.symm.trans hpath'
    rw [Language.ofWord?_word] at hword
    cases hword
    have hfine : (outcome (asideOf language name d.files)).1 = true := by
      by_contra hfailed
      simp [Value.field?, Fields.get?, hfailed] at hsuccess
    rw [hfiles]
    exact linesIn_of_success hsplits hfine k hk

theorem mapM_append_eq_ok {before after values : List Value}
    (h : ((before ++ target :: after).mapM (splitTarget home)).onDesk d = (.ok values, d')) :
    ∃ firsts value rest d₁ d₂, (before.mapM (splitTarget home)).onDesk d = (.ok firsts, d₁) ∧
      (splitTarget home target).onDesk d₁ = (.ok value, d₂) ∧
      (after.mapM (splitTarget home)).onDesk d₂ = (.ok rest, d') ∧
      values[before.length]? = some value := by
  rw [List.mapM_append] at h
  obtain ⟨firsts, d₁, hfirsts, h⟩ := onDesk_bind_eq_ok h
  obtain ⟨others, d₃, hothers, h⟩ := onDesk_bind_eq_ok h
  cases h
  rw [List.mapM_cons] at hothers
  obtain ⟨value, d₂, hvalue, hothers⟩ := onDesk_bind_eq_ok hothers
  obtain ⟨rest, d₄, hrest, hothers⟩ := onDesk_bind_eq_ok hothers
  cases hothers
  have hlength : before.length = firsts.length :=
    (forall₂_of_mapM (congrArg Prod.fst hfirsts)).length_eq
  exact ⟨firsts, value, rest, d₁, d₂, hfirsts, hvalue, hrest, by simp [hlength]⟩

theorem mem_of_last? {ds : Deposits} {p : Place} {part : List String} (h : ds.last? p = some part) :
    ∃ q, (q, part) ∈ ds := by
  obtain ⟨⟨q, part'⟩, hfind, rfl⟩ := Option.map_eq_some_iff.1 h
  exact ⟨q, List.mem_reverse.1 (List.mem_of_find?_eq_some hfind)⟩

/-- After a batch, each part of a target that was split well holds what was put down last in its place:
by a later target, or else by its own. So the target keeps its own lines exactly if no later target
puts other lines in a place of its parts. -/
theorem splitAll_keepsParts_iff {before after values : List Value} {analysis : Value}
    {withWarnings : Bool} {language : Language} {name : String} {lines : List String}
    (htargets : targets analysis withWarnings = .ok (before ++ target :: after))
    (hall : (splitAll home analysis withWarnings).onDesk d = (.ok values, d'))
    (hlanguage : target.field? "language" = some (.str language.word))
    (hpath : target.field? "path" = some (.str name))
    (hsplits : Splits ((before.mapM (splitTarget home)).onDesk d).2.files language name lines)
    (hsuccess : (values[before.length]?).bind (Value.field? "status") = some (.str "success")) :
    let reached := (splitTarget home target).onDesk ((before.mapM (splitTarget home)).onDesk d).2
    let later := batchDeposits home reached.2 after
    let parts := usualParts language lines
    let path := fun k => partPath language (.ofString name) (usualFolder name) (k + 1)
    parts.flatten = lines ∧
      (∀ k (hk : k < parts.length), ∃ place, d'.files.locate (path k) = .ok place ∧
        linesIn d'.files (path k) = .ok ((later.last? place).getD parts[k])) ∧
      ((∀ k (hk : k < parts.length), linesIn d'.files (path k) = .ok parts[k]) ↔
        ∀ k (hk : k < parts.length) place part, d'.files.locate (path k) = .ok place →
          later.last? place = some part → part = parts[k]) := by
  unfold splitAll at hall
  rw [htargets, onDesk_bind_of_ok (onDesk_demand_ok ..)] at hall
  obtain ⟨firsts, value, rest, d₁, d₂, hfirsts, hvalue, hrest, hat⟩ := mapM_append_eq_ok hall
  intro reached later parts path
  have hlater : later = batchDeposits home d₂ after := by
    simp only [later, reached, hfirsts, hvalue]
  rw [hfirsts] at hsplits
  rw [hat, Option.bind_some] at hsuccess
  have hown : ∀ k (hk : k < parts.length), linesIn d₂.files (path k) = .ok parts[k] :=
    linesIn_of_splitTarget hvalue hlanguage hpath hsplits hsuccess
  have hreceives := receives_mapM hrest
  rw [← hlater] at hreceives
  have hend : ∀ k (hk : k < parts.length), ∃ place, d'.files.locate (path k) = .ok place ∧
      linesIn d'.files (path k) = .ok ((later.last? place).getD parts[k]) := by
    intro k hk
    apply linesIn_of_receives hreceives (hown k hk)
    intro p part hlast
    obtain ⟨q, hmem⟩ := mem_of_last? hlast
    exact readable_of_mem_batchDeposits (hlater ▸ hmem)
  refine ⟨flatten_cut (show 0 < defaultLimit.toNat by decide) _ lines, hend, ?_⟩
  constructor
  · intro hkept k hk place part hplace hlast
    obtain ⟨place', hplace', hlines⟩ := hend k hk
    have hsame : place' = place := Except.ok.inj (hplace'.symm.trans hplace)
    rw [hsame, hlast, hkept k hk] at hlines
    exact (Except.ok.inj hlines).symm
  · intro hnone k hk
    obtain ⟨place, hplace, hlines⟩ := hend k hk
    rw [hlines]
    cases hlast : later.last? place with
    | none => rfl
    | some part => rw [hnone k hk place part hplace hlast]; rfl

def twinFiles : Files :=
  ⟨"/w", [(["a.py"], .file (List.replicate 121 10)), (["a.PY"], .file (List.replicate 122 10))]⟩

def twin (name : String) : Value := .dict [("path", .str name), ("language", .str "python")]

def twinAnalysis : Value := .dict [("critical_files", .list [twin "a.py", twin "a.PY"])]

def twinDesk : Desk := ⟨twinFiles, "", "", [], 0⟩

def firstTwin (result : Except (Stop Fault) (List Value) × Desk) :
    Option String × Option (List String) :=
  (((result.1.toOption.bind (·[0]?)).bind (Value.field? "status")).bind Value.str?,
    (linesIn result.2.files (partPath .python (.ofString "a.py") (usualFolder "a.py") 2)).toOption)

theorem twins_overwritten :
    let result := (splitAll "" twinAnalysis false).onDesk twinDesk
    let parts := usualParts .python (List.replicate 121 "")
    let path := fun k => partPath .python (.ofString "a.py") (usualFolder "a.py") (k + 1)
    (¬∀ k (hk : k < parts.length), linesIn result.2.files (path k) = .ok parts[k]) ∧
      ∃ k, ∃ hk : k < parts.length, ∃ place part,
        (batchDeposits "" ((splitTarget "" (twin "a.py")).onDesk twinDesk).2 [twin "a.PY"]).last? place =
          some part ∧ part ≠ parts[k] := by
  intro result parts path
  have hseen : firstTwin result = (some "success", some ["", ""]) := by decide +kernel
  have hsplits : Splits twinFiles .python "a.py" (List.replicate 121 "") :=
    ⟨by decide +kernel, by decide +kernel, by decide +kernel⟩
  have htwo : 1 < parts.length ∧ parts[1]? = some [""] := by decide +kernel
  have htargets : targets twinAnalysis false = .ok ([] ++ twin "a.py" :: [twin "a.PY"]) := rfl
  rcases hrun : (splitAll "" twinAnalysis false).onDesk twinDesk with ⟨outcome, d'⟩
  simp only [result, hrun] at hseen ⊢
  cases outcome with
  | error stop => cases hseen
  | ok values =>
    obtain ⟨hstatus, hlines⟩ := Prod.mk.inj hseen
    have hsuccess : (values[0]?).bind (Value.field? "status") = some (.str "success") := by
      obtain ⟨v, hv, hs⟩ := Option.bind_eq_some_iff.1 hstatus
      cases v with
      | str s =>
        cases hs
        exact hv
      | _ => cases hs
    obtain ⟨-, -, hiff⟩ := splitAll_keepsParts_iff htargets hrun rfl rfl hsplits hsuccess
    have hlost : ¬∀ k (hk : k < parts.length), linesIn d'.files (path k) = .ok parts[k] := by
      intro hkept
      have hsecond : (linesIn d'.files (path 1)).toOption = some ["", ""] := hlines
      rw [hkept 1 htwo.1] at hsecond
      have hsame : parts[1]? = some ["", ""] := (List.getElem?_eq_getElem htwo.1).trans hsecond
      rw [htwo.2] at hsame
      cases hsame
    refine ⟨hlost, ?_⟩
    by_contra hnone
    apply hlost
    apply hiff.2
    intro k hk place part hplace hlast
    by_contra hne
    exact hnone ⟨k, hk, place, part, hlast, hne⟩

end Batch

end Split

end Workbench
