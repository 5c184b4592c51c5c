import Mathlib.Data.List.Forall2
import Workbench.Proofs.Split.Parts
import Workbench.Split.Batch

/-!
# Surveys and splitting

What an analysis lists is long enough to be split: the tools read files as the survey does, and their
limit is below the one for warnings. A batch hands each listed file to the tool for its language.
-/

namespace Workbench

theorem exists_of_mem_mapM {ε α β : Type} {f : α → Except ε β} {l : List α} {r : List β}
    (h : l.mapM f = .ok r) {b : β} (hb : b ∈ r) : ∃ a ∈ l, f a = .ok b := by
  induction l generalizing r with
  | nil =>
    cases h
    cases hb
  | cons a l ih =>
    rw [List.mapM_cons] at h
    obtain ⟨c, hc, h⟩ := bind_eq_ok_iff.mp h
    obtain ⟨rest, hrest, h⟩ := bind_eq_ok_iff.mp h
    cases h
    cases hb with
    | head => exact ⟨a, List.mem_cons_self, hc⟩
    | tail _ hb =>
      obtain ⟨a', ha', h⟩ := ih hrest hb
      exact ⟨a', List.mem_cons_of_mem a ha', h⟩

theorem Session.bind_ok {ε α β : Type} {x : Session ε α} {f : α → Session ε β} {d : Desk} {b : β}
    (h : ((x >>= f).onDesk d).1 = .ok b) :
    ∃ a d', (x.onDesk d).1 = .ok a ∧ ((f a).onDesk d').1 = .ok b := by
  rw [onDesk_bind] at h
  rcases hx : x.onDesk d with ⟨e | a, d'⟩
  · rw [hx] at h
    cases h
  · rw [hx] at h
    exact ⟨a, d', rfl, h⟩

theorem Session.forall₂_of_mapM {ε α β : Type} {f : α → Session ε β} {l : List α} {d : Desk}
    {r : List β} (h : ((l.mapM f).onDesk d).1 = .ok r) :
    List.Forall₂ (fun a b => ∃ d, ((f a).onDesk d).1 = .ok b) l r := by
  induction l generalizing d r with
  | nil =>
    cases h
    exact .nil
  | cons a l ih =>
    rw [List.mapM_cons] at h
    obtain ⟨b, d₁, hb, h⟩ := bind_ok h
    obtain ⟨rest, d₂, hrest, h⟩ := bind_ok h
    cases h
    exact .cons ⟨d, hb⟩ (ih hrest)

namespace Survey

variable {files : Files} {linters : Linters} {moment : Moment} {withComplexity : Bool}
  {names : List String} {analysis : Analysis} {info : Info}

/-- The files that an analysis lists: the critical ones, and behind them those with a warning. -/
def Analysis.listed (a : Analysis) (withWarnings : Bool) : List Info :=
  if withWarnings then a.critical ++ a.warning else a.critical

theorem countLines_of_infoOf {name : String}
    (h : infoOf files linters withComplexity name = .ok (some info)) :
    info.path = name ∧ countLines files name = .ok info.lines := by
  unfold infoOf at h
  cases hdetect : Language.detect files name with
  | none => rw [hdetect] at h; cases h
  | some language =>
    rw [hdetect] at h
    obtain ⟨lines, hlines, h⟩ := bind_eq_ok_iff.mp h
    dsimp only at h
    split at h
    · obtain ⟨c, -, h⟩ := bind_eq_ok_iff.mp h
      cases h
      exact ⟨rfl, hlines⟩
    · cases h
      exact ⟨rfl, hlines⟩

/-- A listed file was read, and it has more lines than go without a warning. -/
theorem sourceLines_of_listed (h : analyze files linters moment withComplexity names = .ok analysis)
    (hinfo : info ∈ analysis.warning ∨ info ∈ analysis.critical) :
    ∃ lines, sourceLines files (.ofString info.path) = .ok lines ∧ info.lines = lines.length ∧
      warningLimit < lines.length := by
  obtain ⟨infos, hinfos, h⟩ := bind_eq_ok_iff.mp h
  cases h
  obtain ⟨found, hfound, h⟩ := bind_eq_ok_iff.mp hinfos
  cases h
  obtain ⟨hmem, hlong⟩ : info ∈ found.filterMap id ∧ warningLimit < info.lines := by
    simp only [Analysis.ofInfos, byUrgency, List.mem_mergeSort, List.mem_filter] at hinfo
    rcases hinfo with ⟨hmem, hwarning⟩ | ⟨hmem, hcritical⟩
    · simp only [Info.isWarning, Bool.and_eq_true, decide_eq_true_eq] at hwarning
      exact ⟨hmem, hwarning.1⟩
    · have hlong : criticalLimit ≤ info.lines := by simpa [Info.isCritical] using hcritical
      exact ⟨hmem, Nat.lt_of_lt_of_le (by decide) hlong⟩
  have hsome : some info ∈ found := by simpa using hmem
  obtain ⟨name, -, hname⟩ := exists_of_mem_mapM hfound hsome
  obtain ⟨rfl, hcount⟩ := countLines_of_infoOf hname
  obtain ⟨lines, hlines, h⟩ := bind_eq_ok_iff.mp hcount
  have hlength : info.lines = lines.length := (Except.ok.inj h).symm
  exact ⟨lines, hlines, hlength, hlength ▸ hlong⟩

theorem Language.ofWord?_word (l : Language) : ofWord? l.word = some l := by
  cases l <;> decide

end Survey

namespace Split

open Survey (Language Info Analysis)
open Session

/-! ## Batches -/

namespace Batch

variable {home : String} {d : Desk} {info : Info} {analysis : Analysis}

/-- What a batch keeps of a file that it handed to the tool for its language. -/
def Handed (home : String) (info : Info) (value : Value) : Prop :=
  ∃ (fine : Bool) (message : String), value = .dict [
    ("file_path", .str info.path), ("language", .str info.language.word),
    ("status", .str (if fine then "success" else "failed")), ("message", .str message),
    ("script", .str (toolName home info.language)), ("original_lines", .int info.lines)]

theorem splitTarget_eq (home : String) (info : Info) :
    splitTarget home info.toValue = (do
      let fields ← splitWith home info.language.word info.path
      return .dict (fields ++ [("original_lines", .int info.lines)])) := by
  have hsupported : supported? (.str info.language.word) = .ok (some info.language.word) := by
    simp [supported?, Language.ofWord?_word]
  have hlanguage : info.toValue.fieldOr "language" (.str "unknown") =
      .ok (.str info.language.word) := rfl
  have hpath : info.toValue.fieldOr "path" .null = .ok (.str info.path) := rfl
  have hlines : info.toValue.fieldOr "lines" (.int 0) = .ok (.int info.lines) := rfl
  unfold splitTarget
  simp only [hlanguage, hpath, hlines, demand, pure_bind, hsupported, id]

theorem handed_of_splitTarget {value : Value}
    (h : ((splitTarget home info.toValue).onDesk d).1 = .ok value) : Handed home info value := by
  rw [splitTarget_eq] at h
  obtain ⟨fields, d₁, hfields, h⟩ := bind_ok h
  cases h
  unfold splitWith at hfields
  rw [Language.ofWord?_word] at hfields
  obtain ⟨_, d₂, -, hfields⟩ := bind_ok hfields
  obtain ⟨run, d₃, -, hfields⟩ := bind_ok hfields
  cases hfields
  exact ⟨_, _, rfl⟩

theorem targets_toValue (a : Analysis) (withWarnings : Bool) :
    targets a.toValue withWarnings = .ok ((a.listed withWarnings).map Info.toValue) := by
  have hcritical : a.toValue.fieldOr "critical_files" (.list []) =
      .ok (.list (a.critical.map Info.toValue)) := rfl
  have hwarning : a.toValue.fieldOr "warning_files" (.list []) =
      .ok (.list (a.warning.map Info.toValue)) := rfl
  unfold targets Analysis.listed
  rw [hcritical, hwarning]
  cases withWarnings with
  | false => rfl
  | true => rw [if_pos rfl, List.map_append]; rfl

theorem handed_of_splitAll {withWarnings : Bool} {values : List Value}
    (h : ((splitAll home analysis.toValue withWarnings).onDesk d).1 = .ok values) :
    List.Forall₂ (Handed home) (analysis.listed withWarnings) values := by
  unfold splitAll at h
  rw [targets_toValue, onDesk_bind_of_ok (onDesk_demand_ok ..)] at h
  have hall := forall₂_of_mapM h
  rw [List.forall₂_map_left_iff] at hall
  exact hall.imp fun info value ⟨d, h⟩ => handed_of_splitTarget h

end Batch

/-! ## Listed files -/

theorem Delivers.not_within {language : Language} {source folder : Path} {parts : List (List String)}
    {files : Files} {result : Except (Stop Fault) Unit × Desk}
    (h : Delivers language source folder parts ⟨files, "", "", [], 0⟩ result) :
    result.2.out ≠ "File is already within limit.\n" := by
  intro hout
  by_cases hok : result.1 = .ok ()
  · have := congrArg (fun s => s.toList.head?) ((h.tells hok).symm.trans hout)
    simp at this
  · have := (h.quiet hok).symm.trans hout
    simp at this

/-- Whatever an analysis lists is in a language that has a tool, and no batch passes it over. The
tool does not take it to be short enough: it finds two sections or more, none of them empty, which one
after the other are the lines of the file. -/
theorem listed_isSplit {files : Files} {linters : Survey.Linters} {moment : Moment}
    {withComplexity : Bool} {names : List String} {analysis : Analysis} {info : Info}
    (hanalysis : Survey.analyze files linters moment withComplexity names = .ok analysis)
    (hinfo : info ∈ analysis.warning ∨ info ∈ analysis.critical) :
    Language.ofWord? info.language.word = some info.language ∧
    (∀ home withWarnings d values,
      ((Batch.splitAll home analysis.toValue withWarnings).onDesk d).1 = .ok values →
        List.Forall₂ (Batch.Handed home) (analysis.listed withWarnings) values) ∧
    ∃ lines sections, Survey.sourceLines files (.ofString info.path) = .ok lines ∧
      info.lines = lines.length ∧
      parts (.of info.language) defaultLimit lines = .ok sections ∧
      2 ≤ sections.length ∧ (∀ s ∈ sections, s ≠ []) ∧ sections.flatten = lines ∧
      ∀ args given, (commandLine info.language).read args = .ok given →
        given.operand 0 = info.path → given.value? "--max-lines" = none →
        Delivers info.language (sourceOf given) (folderOf given) sections ⟨files, "", "", [], 0⟩
          ((run info.language args).on files) ∧
        ((run info.language args).on files).2.out ≠ "File is already within limit.\n" := by
  obtain ⟨lines, hlines, hlength, hlong⟩ := Survey.sourceLines_of_listed hanalysis hinfo
  have hover : defaultLimit < lines.length := by
    unfold Survey.warningLimit at hlong
    unfold defaultLimit
    omega
  refine ⟨Language.ofWord?_word _, fun home withWarnings d values => Batch.handed_of_splitAll,
    lines, cut (.of info.language) defaultLimit.toNat lines, hlines, hlength,
    parts_eq_cut (by decide) _ lines, two_le_length_cut (by decide) (by unfold defaultLimit at *; omega),
    fun s hs => ne_nil_of_mem_cut hs, flatten_cut (by decide) _ lines, ?_⟩
  intro args given hgiven hpath hmax
  have hlimit : limitOf given = defaultLimit := by
    unfold limitOf
    rw [hmax]
    rfl
  have hsource : sourceOf given = .ofString info.path := congrArg Path.ofString hpath
  have hdelivers : Delivers info.language (sourceOf given) (folderOf given)
      (cut (.of info.language) defaultLimit.toNat lines) ⟨files, "", "", [], 0⟩
      ((run info.language args).on files) := by
    rw [on_run hgiven, hlimit]
    exact delivers_splitFile (Path.slash_not_mem_name _) (by decide) (hsource ▸ hlines) hover
  exact ⟨hdelivers, hdelivers.not_within⟩

def blankFile : Files := ⟨"/w", [(["a.rs"], .file (List.replicate 131 10))]⟩

theorem blankFile_isSplit :
    let info : Info := ⟨"a.rs", .rust, 131, Survey.priority 131 0 0 0⟩
    let analysis := Analysis.ofInfos ⟨2001, 2, 3, 4, 5, 6⟩ [info]
    Survey.analyze blankFile (fun _ => none) ⟨2001, 2, 3, 4, 5, 6⟩ false ["a.rs"] = .ok analysis ∧
      info ∈ analysis.warning ∧
      ∃ sections, 2 ≤ sections.length ∧ sections.flatten = List.replicate 131 "" ∧
        Delivers .rust (.ofString "a.rs") (.ofString "refactored") sections ⟨blankFile, "", "", [], 0⟩
          ((run .rust ["a.rs"]).on blankFile) := by
  intro info analysis
  have hlines : Survey.sourceLines blankFile (.ofString "a.rs") = .ok (List.replicate 131 "") := by
    decide +kernel
  have hcount : Survey.countLines blankFile "a.rs" = .ok 131 := by
    unfold Survey.countLines
    rw [hlines]
    rfl
  have hdetect : Language.detect blankFile "a.rs" = some .rust := by decide +kernel
  have hinfo : Survey.infoOf blankFile (fun _ => none) false "a.rs" = .ok (some info) := by
    unfold Survey.infoOf
    rw [hdetect, hcount]
    rfl
  have hanalysis : Survey.analyze blankFile (fun _ => none) ⟨2001, 2, 3, 4, 5, 6⟩ false ["a.rs"] =
      .ok analysis := by
    unfold Survey.analyze Survey.infosOf
    rw [List.mapM_cons, List.mapM_nil, hinfo]
    rfl
  have hlisted : info ∈ analysis.warning := by
    simp [analysis, info, Analysis.ofInfos, Survey.byUrgency, Info.isWarning, Survey.warningLimit,
      Survey.criticalLimit]
  obtain ⟨-, -, lines, sections, hfound, -, -, htwo, -, hflat, hrun⟩ :=
    listed_isSplit hanalysis (.inl hlisted)
  have hsame : lines = List.replicate 131 "" := Except.ok.inj (hfound.symm.trans hlines)
  exact ⟨hanalysis, hlisted, sections, htwo, hflat.trans hsame,
    (hrun ["a.rs"] ⟨[some "a.rs"], []⟩ rfl rfl rfl).1⟩

end Split

end Workbench
