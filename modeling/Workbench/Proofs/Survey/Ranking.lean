import Mathlib.Data.List.Forall2
import Workbench.Proofs.Decimal.Order
import Workbench.Proofs.World.Files
import Workbench.Survey.Analysis

/-!
# Rankings

An analysis ranks the long files by their scores. A score is never negative and always a number, so
the order of bit patterns by which the files are sorted is the order of the scores; and a ranking in
which files of one score stay as they are is the only one.
-/

namespace Workbench.Survey

open Decimal (Nonnegative nonnegative_nearest infinityBits)

variable {files : Files} {linters : Linters} {moment : Moment} {withComplexity : Bool}
  {names : List String} {name : String} {info : Info} {l r r' : List Info}

/-! ## Scores -/

theorem nonnegative_priority (lines complexity nesting functions : Nat) :
    Nonnegative (priority lines complexity nesting functions) := by
  have hweigh (n : Nat) {w : Float} (hw : 0 < w.toBits.toNat ∧ w.toBits.toNat < infinityBits) :
      Nonnegative (Decimal.nearest n 1 * w) := (nonnegative_nearest n 1).mul hw.1 hw.2
  unfold priority Weights.score
  dsimp only
  split
  · exact hweigh lines (by decide +kernel)
  · unfold Weights.sum
    have hlines := hweigh lines (w := weights.lines) (by decide +kernel)
    have hcomplexity := hweigh complexity (w := weights.complexity) (by decide +kernel)
    have hnesting := hweigh nesting (w := weights.nesting) (by decide +kernel)
    have hfunctions := hweigh functions (w := weights.functions) (by decide +kernel)
    exact ((hlines.add hcomplexity).add hnesting).add hfunctions

/-! ## Sorting -/

def Scored (l : List Info) : Prop := ∀ i ∈ l, Nonnegative i.score

/-- The second list is the first one with the highest scores first; what has one score stays in its
order. -/
structure Ranking (l r : List Info) : Prop where
  perm : r.Perm l
  falls : r.Pairwise fun a b => b.score ≤ a.score
  ties : ∀ i ∈ l, r.filter (·.score == i.score) = l.filter (·.score == i.score)

theorem Scored.filter (h : Scored l) (p : Info → Bool) : Scored (l.filter p) :=
  fun i hi => h i (List.mem_of_mem_filter hi)

theorem Scored.filter_score (h : Scored l) (hinfo : Nonnegative info.score) :
    l.filter (·.score == info.score) = l.filter (·.rank == info.rank) := by
  refine List.filter_congr fun i hi => ?_
  rw [Bool.eq_iff_iff, (h i hi).beq_iff hinfo, beq_iff_eq]
  rfl

def precedes (a b : Info) : Bool := b.rank ≤ a.rank

theorem precedes_trans (a b c : Info) (hab : precedes a b) (hbc : precedes b c) : precedes a c := by
  unfold precedes at *
  simp only [decide_eq_true_eq] at *
  exact Nat.le_trans hbc hab

theorem precedes_total (a b : Info) : precedes a b || precedes b a := by
  unfold precedes
  simpa using Nat.le_total b.rank a.rank

theorem byUrgency_perm (l : List Info) : (byUrgency l).Perm l := List.mergeSort_perm ..

theorem byUrgency_falls (l : List Info) : (byUrgency l).Pairwise fun a b => b.rank ≤ a.rank :=
  (List.pairwise_mergeSort precedes_trans precedes_total l).imp fun h => of_decide_eq_true h

theorem byUrgency_ties (l : List Info) (k : Nat) :
    (byUrgency l).filter (·.rank == k) = l.filter (·.rank == k) := by
  have hsorted : (l.filter (·.rank == k)).Pairwise fun a b => precedes a b := by
    refine List.pairwise_of_forall_mem_list fun a ha b hb => ?_
    have ha : a.rank = k := by simpa using (List.mem_filter.1 ha).2
    have hb : b.rank = k := by simpa using (List.mem_filter.1 hb).2
    simp [precedes, ha, hb]
  -- what has one rank is sorted already, and sorting takes nothing out of its order
  have hsub : (l.filter (·.rank == k)).Sublist (byUrgency l) :=
    List.sublist_mergeSort precedes_trans precedes_total hsorted List.filter_sublist
  have hties := hsub.filter (·.rank == k)
  rw [List.filter_filter] at hties
  simp only [Bool.and_self] at hties
  exact (hties.eq_of_length (((byUrgency_perm l).filter _).length_eq.symm)).symm

theorem mem_iff_of_ties (h : ∀ k, r.filter (·.rank == k) = r'.filter (·.rank == k)) :
    info ∈ r ↔ info ∈ r' := by
  have hmem := congrArg (info ∈ ·) (h info.rank)
  simpa using hmem

theorem eq_of_ties (hr : r.Pairwise fun a b => b.rank ≤ a.rank)
    (hr' : r'.Pairwise fun a b => b.rank ≤ a.rank)
    (hties : ∀ k, r.filter (·.rank == k) = r'.filter (·.rank == k)) : r = r' := by
  induction r generalizing r' with
  | nil =>
    refine (List.eq_nil_iff_forall_not_mem.2 fun i hi => ?_).symm
    exact List.not_mem_nil ((mem_iff_of_ties hties).2 hi)
  | cons a t ih =>
    cases r' with
    | nil => exact absurd ((mem_iff_of_ties hties).1 List.mem_cons_self) List.not_mem_nil
    | cons b t' =>
      rw [List.pairwise_cons] at hr hr'
      have hrank : b.rank = a.rank := by
        have hb := List.mem_cons.1 ((mem_iff_of_ties hties).2 (List.mem_cons_self (a := b)))
        have ha := List.mem_cons.1 ((mem_iff_of_ties hties).1 (List.mem_cons_self (a := a)))
        rcases hb with rfl | hb
        · rfl
        rcases ha with rfl | ha
        · rfl
        exact Nat.le_antisymm (hr.1 b hb) (hr'.1 a ha)
      -- the first of all is the first of its rank
      have hhead : a = b := by
        have h := hties a.rank
        rw [List.filter_cons_of_pos (by simp), List.filter_cons_of_pos (by simp [hrank])] at h
        exact (List.cons.inj h).1
      subst hhead
      have htail (k : Nat) : t.filter (·.rank == k) = t'.filter (·.rank == k) := by
        have h := hties k
        rw [List.filter_cons, List.filter_cons] at h
        split at h
        · exact (List.cons.inj h).2
        · exact h
      rw [ih hr.2 hr'.2 htail]

theorem Ranking.rank_falls (h : Scored l) (hr : Ranking l r) :
    r.Pairwise fun a b => b.rank ≤ a.rank :=
  hr.falls.imp_of_mem fun ha hb hle =>
    ((h _ (hr.perm.mem_iff.1 hb)).le_iff (h _ (hr.perm.mem_iff.1 ha))).1 hle

theorem Ranking.rank_ties (h : Scored l) (hr : Ranking l r) (k : Nat) :
    r.filter (·.rank == k) = l.filter (·.rank == k) := by
  have hscored : Scored r := fun i hi => h i (hr.perm.mem_iff.1 hi)
  by_cases hk : ∃ i ∈ l, i.rank = k
  · obtain ⟨i, hi, rfl⟩ := hk
    rw [← h.filter_score (h i hi), ← hscored.filter_score (h i hi)]
    exact hr.ties i hi
  · have hnone : l.filter (·.rank == k) = [] := by
      rw [List.filter_eq_nil_iff]
      exact fun i hi hrank => hk ⟨i, hi, eq_of_beq hrank⟩
    have hperm := hr.perm.filter (·.rank == k)
    rw [hnone] at hperm ⊢
    exact hperm.eq_nil

theorem ranking_iff (h : Scored l) : Ranking l r ↔ r = byUrgency l := by
  have hscored : Scored (byUrgency l) := fun i hi => h i ((byUrgency_perm l).mem_iff.1 hi)
  constructor
  · intro hr
    refine eq_of_ties (hr.rank_falls h) (byUrgency_falls l) fun k => ?_
    rw [hr.rank_ties h, byUrgency_ties]
  · rintro rfl
    refine ⟨byUrgency_perm l, ?_, fun i hi => ?_⟩
    · exact (byUrgency_falls l).imp_of_mem fun ha hb hle =>
        ((hscored _ hb).le_iff (hscored _ ha)).2 hle
    · rw [h.filter_score (h i hi), hscored.filter_score (h i hi), byUrgency_ties]

/-! ## Infos -/

/-- What is known about the file of a name: its language, the number of its lines, and the score that
comes of the lines and of the measures of its text, or of the lines alone. -/
structure Describes (files : Files) (linters : Linters) (withComplexity : Bool) (name : String)
    (info : Info) : Prop where
  path : info.path = name
  language : Language.detect files name = some info.language
  measures : ∃ text, files.lenientText (.ofString name) = .ok text ∧
    info.lines = (Text.lines text).length ∧
    info.score = if withComplexity then
        let folder := (Path.ofString name).parent.toString
        let c := complexityOf linters (some info.language) folder text
        priority info.lines c.branches c.nesting c.functions
      else priority info.lines 0 0 0

theorem Describes.nonnegative (h : Describes files linters withComplexity name info) :
    Nonnegative info.score := by
  obtain ⟨text, -, -, hscore⟩ := h.measures
  rw [hscore]
  split <;> exact nonnegative_priority ..

theorem lenientText_of_read {content : Bytes}
    (h : files.read (Path.ofString name).toString = .ok content) :
    files.lenientText (.ofString name) = .ok (Text.plainNewlines (Utf8.salvage content)) := by
  unfold Files.lenientText
  rw [h]
  rfl

theorem Describes.eq_of_read {language : Language} {content : Bytes} {n : Nat} {c : Complexity}
    (h : Describes files linters true name info)
    (hlanguage : Language.detect files name = some language)
    (hread : files.read (Path.ofString name).toString = .ok content)
    (hn : (Text.linesFrom [] (Text.unifyNewlines (Utf8.salvageFrom .start content))).length = n)
    (hc : complexityOf linters (some language) (Path.ofString name).parent.toString
      (Text.plainNewlines (Utf8.salvage content)) = c) :
    info = ⟨name, language, n, priority n c.branches c.nesting c.functions⟩ := by
  obtain ⟨path, language', lines, score⟩ := info
  obtain ⟨hpath, hlanguage', text, htext, hlines, hscore⟩ := h
  have htext := Except.ok.inj ((lenientText_of_read hread).symm.trans htext)
  subst htext
  cases hpath
  cases hlanguage.symm.trans hlanguage'
  dsimp only at hscore
  rw [if_pos rfl, hc] at hscore
  unfold Text.lines Text.plainNewlines Utf8.salvage at hlines
  rw [String.toList_ofList, String.toList_ofList, List.length_map, hn] at hlines
  cases hlines
  exact congrArg (Info.mk _ _ _) hscore

theorem exists_infoOf {text : String} {language : Language}
    (hread : files.lenientText (.ofString name) = .ok text)
    (hlanguage : Language.detect files name = some language) :
    ∃ info, infoOf files linters withComplexity name = .ok (some info) ∧
      Describes files linters withComplexity name info := by
  unfold infoOf countLines sourceLines fileComplexity
  dsimp only
  rw [hlanguage, hread]
  cases withComplexity with
  | false => exact ⟨_, rfl, rfl, hlanguage, text, hread, rfl, rfl⟩
  | true => exact ⟨_, rfl, rfl, hlanguage, text, hread, rfl, rfl⟩

theorem infoOf_eq_none (h : Language.detect files name = none) :
    infoOf files linters withComplexity name = .ok none := by
  unfold infoOf
  rw [h]
  rfl

def known (files : Files) (names : List String) : List String :=
  names.filter fun name => (Language.detect files name).isSome

theorem infosOf_cons (found : Option Info) {infos : List Info}
    (hname : infoOf files linters withComplexity name = .ok found)
    (hnames : infosOf files linters withComplexity names = .ok infos) :
    infosOf files linters withComplexity (name :: names) = .ok (found.toList ++ infos) := by
  obtain ⟨rest, hrest, h⟩ := bind_eq_ok_iff.mp hnames
  cases h
  unfold infosOf
  rw [List.mapM_cons, hname, hrest]
  cases found <;> rfl

theorem exists_infosOf
    (h : ∀ name ∈ names, ∃ text, files.lenientText (.ofString name) = .ok text) :
    ∃ infos, infosOf files linters withComplexity names = .ok infos ∧
      List.Forall₂ (Describes files linters withComplexity) (known files names) infos := by
  induction names with
  | nil => exact ⟨[], rfl, .nil⟩
  | cons name names ih =>
    obtain ⟨infos, hinfos, hall⟩ := ih fun name hname => h name (List.mem_cons_of_mem _ hname)
    obtain ⟨text, htext⟩ := h name List.mem_cons_self
    unfold known at hall ⊢
    cases hlanguage : Language.detect files name with
    | none =>
      refine ⟨infos, infosOf_cons none (infoOf_eq_none hlanguage) hinfos, ?_⟩
      rwa [List.filter_cons_of_neg (by simp [hlanguage])]
    | some language =>
      obtain ⟨info, hinfo, hdescribes⟩ := exists_infoOf htext hlanguage
      refine ⟨info :: infos, infosOf_cons (some info) hinfo hinfos, ?_⟩
      rw [List.filter_cons_of_pos (by simp [hlanguage])]
      exact .cons hdescribes hall

theorem scored_of_describes (h : List.Forall₂ (Describes files linters withComplexity) names l) :
    Scored l := by
  induction h with
  | nil => exact fun i hi => absurd hi List.not_mem_nil
  | cons hhead _ ih =>
    intro i hi
    rcases List.mem_cons.1 hi with rfl | hi
    · exact hhead.nonnegative
    · exact ih i hi

/-! ## Analyses -/

/-- If all the files can be read, an analysis comes to the files of a known language, in their order,
and ranks those with 131 to 249 lines and those with 250 lines or more: there is no other ranking. No
file is in both, and the statistics count all the infos and the two rankings. -/
theorem analyze_ranks
    (hread : ∀ name ∈ names, ∃ text, files.lenientText (.ofString name) = .ok text) :
    ∃ infos analysis, analyze files linters moment withComplexity names = .ok analysis ∧
      List.Forall₂ (Describes files linters withComplexity) (known files names) infos ∧
      (∀ r, Ranking (infos.filter fun i => 130 < i.lines ∧ i.lines < 250) r ↔
        r = analysis.warning) ∧
      (∀ r, Ranking (infos.filter fun i => 250 ≤ i.lines) r ↔ r = analysis.critical) ∧
      (∀ i ∈ analysis.warning, i ∉ analysis.critical) ∧
      analysis.toValue.fieldOr "warning_files" .null =
        .ok (.list (analysis.warning.map Info.toValue)) ∧
      analysis.toValue.fieldOr "critical_files" .null =
        .ok (.list (analysis.critical.map Info.toValue)) ∧
      analysis.toValue.fieldOr "statistics" .null = .ok (.dict [
        ("total_files", .int infos.length), ("warning_count", .int analysis.warning.length),
        ("critical_count", .int analysis.critical.length)]) := by
  obtain ⟨infos, hinfos, hall⟩ := @exists_infosOf files linters withComplexity names hread
  have hscored := scored_of_describes hall
  have hwarning : infos.filter Info.isWarning =
      infos.filter fun i => 130 < i.lines ∧ i.lines < 250 := by
    refine List.filter_congr fun i _ => ?_
    rw [Bool.decide_and]
    rfl
  have hcritical : infos.filter Info.isCritical = infos.filter fun i => 250 ≤ i.lines := rfl
  refine ⟨infos, .ofInfos moment infos, ?_, hall, fun r => ?_, fun r => ?_, fun i hi hi' => ?_, rfl, rfl,
    rfl⟩
  · unfold analyze
    rw [hinfos]
    rfl
  · rw [ranking_iff (hscored.filter _), ← hwarning]
    rfl
  · rw [ranking_iff (hscored.filter _), ← hcritical]
    rfl
  · have hshort := (List.mem_filter.1 ((byUrgency_perm _).mem_iff.1 hi)).2
    have hlong := (List.mem_filter.1 ((byUrgency_perm _).mem_iff.1 hi')).2
    simp only [Info.isWarning, Bool.and_eq_true, decide_eq_true_eq] at hshort
    simp only [Info.isCritical, decide_eq_true_eq] at hlong
    omega

/-- Two folders with the same file, of one blank line more than goes without a warning, and a file of no
known language. -/
def blankFiles : Files := ⟨"/w", [(["p"], .folder), (["p", "a.rs"], .file (List.replicate 131 10)),
  (["q"], .folder), (["q", "a.rs"], .file (List.replicate 131 10)), (["notes"], .file [])]⟩

def lintedOnce : Linters := fun program =>
  if program = "cargo" then some fun folder => if folder = "p" then 0 else 1 else none

/-- The file that no linter vouches for comes before its copy in the other folder, which is listed twice;
the one of no known language is left out. -/
theorem blankFiles_ranked :
    let names := ["p/a.rs", "notes", "q/a.rs", "p/a.rs"]
    let a : Info := ⟨"p/a.rs", .rust, 131, priority 131 1 0 0⟩
    let b : Info := ⟨"q/a.rs", .rust, 131, priority 131 0 0 0⟩
    (∀ name ∈ names, ∃ text, blankFiles.lenientText (.ofString name) = .ok text) ∧
      ∃ analysis,
        analyze blankFiles lintedOnce ⟨2001, 2, 3, 4, 5, 6⟩ true names = .ok analysis ∧
        analysis.warning = [b, a, a] ∧ analysis.critical = [] := by
  intro names a b
  have hp : blankFiles.read (Path.ofString "p/a.rs").toString = .ok (List.replicate 131 10) := by
    decide +kernel
  have hq : blankFiles.read (Path.ofString "q/a.rs").toString = .ok (List.replicate 131 10) := by
    decide +kernel
  have hnotes : blankFiles.read (Path.ofString "notes").toString = .ok [] := by decide +kernel
  have hread : ∀ name ∈ names, ∃ text, blankFiles.lenientText (.ofString name) = .ok text := by
    simp only [names, List.forall_mem_cons]
    exact ⟨⟨_, lenientText_of_read hp⟩, ⟨_, lenientText_of_read hnotes⟩,
      ⟨_, lenientText_of_read hq⟩, ⟨_, lenientText_of_read hp⟩, by simp⟩
  have hknown : known blankFiles names = ["p/a.rs", "q/a.rs", "p/a.rs"] := by decide +kernel
  have ha {i : Info} (h : Describes blankFiles lintedOnce true "p/a.rs" i) : i = a :=
    @Describes.eq_of_read _ _ _ _ _ _ _ ⟨1, 0, 0, true⟩ h (by decide +kernel) hp (by decide +kernel)
      (by decide +kernel)
  have hb {i : Info} (h : Describes blankFiles lintedOnce true "q/a.rs" i) : i = b :=
    @Describes.eq_of_read _ _ _ _ _ _ _ ⟨0, 0, 0, false⟩ h (by decide +kernel) hq (by decide +kernel)
      (by decide +kernel)
  obtain ⟨infos, analysis, hanalysis, hall, hwarning, hcritical, -⟩ :=
    @analyze_ranks blankFiles lintedOnce ⟨2001, 2, 3, 4, 5, 6⟩ true names hread
  have hinfos : infos = [a, b, a] := by
    rw [hknown] at hall
    rcases hall with _ | ⟨h₁, _ | ⟨h₂, _ | ⟨h₃, _ | _⟩⟩⟩
    rw [ha h₁, hb h₂, ha h₃]
  subst hinfos
  have hscores : a.score ≤ b.score ∧ a.score ≤ a.score ∧ (a.score == a.score) = true ∧
      (b.score == b.score) = true ∧ (a.score == b.score) = false ∧ (b.score == a.score) = false := by
    decide +kernel
  obtain ⟨hab, haa, haeq, hbeq, hne, hne'⟩ := hscores
  have hranking : Ranking [a, b, a] [b, a, a] :=
    ⟨.swap a b [a], by simp [hab, haa], by simp [haeq, hbeq, hne, hne']⟩
  exact ⟨hread, analysis, hanalysis, ((hwarning _).1 hranking).symm,
    ((hcritical []).1 ⟨.nil, .nil, by simp [a, b]⟩).symm⟩

end Workbench.Survey
