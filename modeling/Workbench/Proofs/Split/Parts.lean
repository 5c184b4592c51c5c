import Workbench.Proofs.Flow.Numbering
import Workbench.Proofs.Split.Sections
import Workbench.Proofs.Text.Lines
import Workbench.Proofs.Text.Utf8
import Workbench.Proofs.World.Files
import Workbench.Split.Command

/-!
# Parts that are written

A run of the splitting tool on a file over the limit ends well exactly if there is room for the parts.
Each part is then found under its number, and its lines are those that were cut.
-/

namespace Workbench.Split

open Survey (Language)
open Session

/-! ## What is asked for -/

def sourceOf (given : CommandLine.Given) : Path := .ofString (given.operand 0)

def limitOf (given : CommandLine.Given) : Int :=
  ((given.value? "--max-lines").bind CommandLine.int?).getD defaultLimit

def folderOf (given : CommandLine.Given) : Path :=
  (sourceOf given).parent.join ((given.value? "--output-dir").getD "refactored")

def partPath (language : Language) (source folder : Path) (number : Nat) : String :=
  (folder.child (partName language source number)).toString

/-- There is room for so many parts: their folder is there or can be made, and none of them is kept
from being written into it. -/
def HasRoom (files : Files) (language : Language) (source folder : Path) (count : Nat) : Prop :=
  ∃ made, (Files.Change.ensure folder).on files = (.ok (), made) ∧
    ∀ k < count, made.Free (partPath language source folder (k + 1))

/-! ## Names of parts -/

section

variable {language : Language} {source folder : Path}

theorem slash_not_mem_digitText (n : Nat) : '/' ∉ (Decimal.digitText n).toList := by
  unfold Decimal.digitText
  rw [String.toList_ofList]
  intro h
  have := Nat.isDigit_of_mem_toDigits (by decide) (by decide) h
  revert this
  decide

theorem slash_not_mem_partName (h : '/' ∉ source.name.toList) (number : Nat) :
    '/' ∉ (partName language source number).toList := by
  have hext : '/' ∉ (partExtension language source).toList := by
    cases language with
    | rust => simp [partExtension]
    | python => simp [partExtension]
    | cpp => exact Path.slash_not_mem_suffix h
    | js => exact Path.slash_not_mem_suffix h
  have hpart : '/' ∉ "_part".toList := by decide
  unfold partName
  simp only [String.toList_append, List.mem_append, not_or]
  exact ⟨⟨⟨Path.slash_not_mem_stem h, hpart⟩, slash_not_mem_digitText number⟩, hext⟩

theorem partName_ne_empty (number : Nat) : partName language source number ≠ "" := by
  intro h
  have := congrArg String.length h
  simp [partName, String.length_append] at this

theorem partName_inj {i j : Nat} (h : partName language source i = partName language source j) :
    i = j := by
  unfold partName at h
  rw [String.append_left_inj, String.append_right_inj] at h
  exact Flow.digitText_inj h

theorem base_partPath (h : '/' ∉ source.name.toList) (number : Nat) :
    PathName.base (partPath language source folder number) = partName language source number :=
  Path.base_child folder (partName_ne_empty number) (slash_not_mem_partName h number)

end

/-! ## Writing parts one after the other -/

section

variable {language : Language} {source folder : Path} {d : Desk}

theorem onDesk_writeParts_cons (number : Nat) (part : List String) (rest : List (List String)) :
    (writeParts language source folder number (part :: rest)).onDesk d =
      match d.files.write (partPath language source folder number) (Utf8.encode (partText part)) with
      | .ok files => (writeParts language source folder (number + 1) rest).onDesk { d with files := files }
      | .error e => (.error (.fault (.file e)), d) := by
  rw [writeParts, onDesk_bind, onDesk_change, Files.Change.on_step]
  unfold partPath
  cases d.files.write _ _ <;> rfl

theorem writeParts_ok_iff (number : Nat) (parts : List (List String)) :
    ((writeParts language source folder number parts).onDesk d).1 = .ok () ↔
      ∀ k < parts.length, d.files.Free (partPath language source folder (number + k)) := by
  induction parts generalizing number d with
  | nil => simp [writeParts]
  | cons part rest ih =>
    rw [onDesk_writeParts_cons]
    have hfirst : d.files.Free (partPath language source folder number) ↔ ∃ files,
        d.files.write (partPath language source folder number) (Utf8.encode (partText part)) =
          .ok files := by
      rw [Files.free_iff, Files.exists_write_iff]
    cases hw : d.files.write (partPath language source folder number)
      (Utf8.encode (partText part)) with
    | error e =>
      refine ⟨fun h => by simp at h, fun h => ?_⟩
      obtain ⟨files, hfiles⟩ := hfirst.mp (h 0 (by simp))
      simp [hw] at hfiles
    | ok files =>
      dsimp only
      rw [ih]
      simp only [Files.free_of_write hw, List.length_cons]
      constructor
      · intro h k hk
        cases k with
        | zero => exact hfirst.mpr ⟨files, hw⟩
        | succ k => have := h k (by omega); rwa [Nat.add_right_comm] at this
      · intro h k hk
        have := h (k + 1) (by omega)
        rwa [Nat.add_right_comm]

theorem read_writeParts_other (hname : '/' ∉ source.name.toList) {other : String} {content : Bytes}
    (number : Nat) (parts : List (List String)) (hspot : ∃ q, d.files.spot other = .ok q)
    (hother : ∀ k < parts.length, PathName.base other ≠ partName language source (number + k))
    (hread : d.files.read other = .ok content) :
    ((writeParts language source folder number parts).onDesk d).2.files.read other = .ok content := by
  induction parts generalizing number d with
  | nil => exact hread
  | cons part rest ih =>
    rw [onDesk_writeParts_cons]
    cases hw : d.files.write (partPath language source folder number)
      (Utf8.encode (partText part)) with
    | error e => exact hread
    | ok files =>
      have hne : PathName.base other ≠ PathName.base (partPath language source folder number) := by
        rw [base_partPath hname]
        exact hother 0 (by simp)
      obtain ⟨q, hq⟩ := hspot
      refine ih (number + 1) ⟨q, (Files.keeps_of_write hw).1.spot hq⟩ (fun k hk => ?_)
        (Files.read_of_write_other hw ⟨q, hq⟩ hne hread)
      have := hother (k + 1) (by simpa using hk)
      rwa [Nat.add_right_comm]

theorem read_writeParts (hname : '/' ∉ source.name.toList) (number : Nat)
    (parts : List (List String))
    (hok : ((writeParts language source folder number parts).onDesk d).1 = .ok ()) (k : Nat)
    (hk : k < parts.length) :
    ((writeParts language source folder number parts).onDesk d).2.files.read
      (partPath language source folder (number + k)) = .ok (Utf8.encode (partText parts[k])) := by
  induction parts generalizing number d k with
  | nil => simp at hk
  | cons part rest ih =>
    rw [onDesk_writeParts_cons] at hok ⊢
    cases hw : d.files.write (partPath language source folder number)
      (Utf8.encode (partText part)) with
    | error e => simp [hw] at hok
    | ok files =>
      rw [hw] at hok
      cases k with
      | zero =>
        -- the parts that follow have other numbers
        obtain ⟨q, hq, -, -⟩ := Files.write_eq_ok_iff.mp hw
        refine read_writeParts_other hname (number + 1) rest
          ⟨q, (Files.keeps_of_write hw).1.spot hq⟩ (fun j _ hj => ?_) (Files.read_of_write hw)
        rw [Nat.add_zero, base_partPath hname] at hj
        have := partName_inj hj
        omega
      | succ k =>
        have := ih (number + 1) hok k (by simpa using hk)
        rwa [Nat.add_right_comm] at this

end

/-! ## Reading parts back -/

theorem partText_eq_printed {part : List String} (h : part ≠ []) : partText part = printed part := by
  unfold partText
  rw [← List.dropLast_concat_getLast h, intercalate_concat, printed_append]
  simp [String.append_assoc]

def linesIn (files : Files) (name : String) : Except ReadFault (List String) :=
  (files.strictText name).map Text.lines

theorem linesIn_of_read {files : Files} {name : String} {part : List String} (hpart : part ≠ [])
    (hlines : ∀ l ∈ part, Text.Unbroken l.toList)
    (hread : files.read name = .ok (Utf8.encode (partText part))) :
    linesIn files name = .ok part := by
  unfold linesIn Files.strictText
  rw [hread]
  simp only [Utf8.decode_encode, Except.map]
  rw [partText_eq_printed hpart, Text.plainNewlines_printed hlines, Text.lines_printed hlines]

/-! ## Runs of the tool -/

section

variable {language : Language} {source : Path} {folderName : String} {limit : Int} {d : Desk}
  {lines : List String}

theorem present?_of_sourceLines {files : Files} (h : Survey.sourceLines files source = .ok lines) :
    ∃ item, files.present? source = .ok (some item) := by
  obtain ⟨text, htext, -⟩ := bind_eq_ok_iff.mp h
  obtain ⟨content, hread, -⟩ := bind_eq_ok_iff.mp htext
  obtain ⟨p, hp, hitem⟩ := Files.read_eq_ok_iff.mp hread
  have hlook : files.look source.toString = .ok (.file content) :=
    Files.look_eq_ok_iff.mpr ⟨p, hp, hitem⟩
  exact ⟨_, by rw [Files.present?, hlook]⟩

theorem unbroken_of_sourceLines {files : Files} (h : Survey.sourceLines files source = .ok lines) :
    ∀ l ∈ lines, Text.Unbroken l.toList := by
  obtain ⟨text, -, htext⟩ := bind_eq_ok_iff.mp h
  cases htext
  exact fun l hl => Text.unbroken_of_mem_lines hl

theorem onDesk_splitFile (h : Survey.sourceLines d.files source = .ok lines) :
    (splitFile language source limit folderName).onDesk d =
      if (lines.length : Int) ≤ limit then (.ok (), d.plus "File is already within limit.\n")
      else (do
        let found ← demand (fun _ => Fault.zeroLimit) (parts (.of language) limit lines)
        let folder := source.parent.join folderName
        change .file (.ensure folder)
        writeParts language source folder 1 found
        say ("Generated " ++ Decimal.digitText found.length ++ " parts in " ++ folder.toString) :
          Session Fault Unit).onDesk d := by
  obtain ⟨item, hitem⟩ := present?_of_sourceLines h
  unfold splitFile
  rw [onDesk_bind_of_ok onDesk_files, hitem, onDesk_bind_of_ok (onDesk_demand_ok ..)]
  simp only [Option.isNone_some, Bool.false_eq_true, if_false]
  rw [onDesk_bind_of_ok onDesk_files, h, onDesk_bind_of_ok (onDesk_demand_ok ..)]
  split
  · rw [onDesk_say]
    rfl
  · rfl

theorem out_writeParts {folder : Path} (number : Nat) (parts : List (List String)) :
    ((writeParts language source folder number parts).onDesk d).2.out = d.out := by
  induction parts generalizing number d with
  | nil => rfl
  | cons part rest ih =>
    rw [onDesk_writeParts_cons]
    cases d.files.write _ _ with
    | error e => rfl
    | ok files => exact ih (number + 1)

/-- A run delivers parts: it ends well exactly if there is room for them. Then it says how many they
are, and each can be read back under its number. Otherwise it says nothing. -/
structure Delivers (language : Language) (source folder : Path) (parts : List (List String)) (d : Desk)
    (result : Except (Stop Fault) Unit × Desk) : Prop where
  ok_iff : result.1 = .ok () ↔ HasRoom d.files language source folder parts.length
  reads : result.1 = .ok () → ∀ k (hk : k < parts.length),
    linesIn result.2.files (partPath language source folder (k + 1)) = .ok parts[k]
  tells : result.1 = .ok () → result.2.out = d.out ++
    ("Generated " ++ Decimal.digitText parts.length ++ " parts in " ++ folder.toString ++ "\n")
  quiet : result.1 ≠ .ok () → result.2.out = d.out

theorem delivers_splitFile (hname : '/' ∉ source.name.toList) (hlimit : 1 ≤ limit)
    (hlines : Survey.sourceLines d.files source = .ok lines) (hover : limit < lines.length) :
    Delivers language source (source.parent.join folderName) (cut (.of language) limit.toNat lines) d
      ((splitFile language source limit folderName).onDesk d) := by
  have hsize : 0 < limit.toNat := by omega
  rw [onDesk_splitFile hlines, if_neg (by omega), parts_eq_cut hlimit,
    onDesk_bind_of_ok (onDesk_demand_ok ..)]
  generalize hfound : cut (.of language) limit.toNat lines = found
  have hparts : ∀ p ∈ found, p ≠ [] := fun p hp => ne_nil_of_mem_cut (hfound ▸ hp)
  have hunbroken : ∀ p ∈ found, ∀ l ∈ p, Text.Unbroken l.toList := by
    intro p hp l hl
    apply unbroken_of_sourceLines hlines
    rw [← flatten_cut hsize (.of language) lines, hfound]
    exact List.mem_flatten_of_mem hp hl
  generalize source.parent.join folderName = folder
  dsimp only
  rw [onDesk_bind, onDesk_change]
  rcases hensure : (Files.Change.ensure folder).on d.files with ⟨e | ⟨⟩, made⟩
  · -- the folder cannot be made
    refine ⟨⟨fun h => by simp [Except.mapError] at h, ?_⟩, fun h => by simp [Except.mapError] at h,
      fun h => by simp [Except.mapError] at h, fun _ => rfl⟩
    rintro ⟨made', hmade, -⟩
    simp [hensure] at hmade
  · have hroom : HasRoom d.files language source folder found.length ↔
        ∀ k < found.length, made.Free (partPath language source folder (1 + k)) := by
      unfold HasRoom
      rw [hensure]
      simp [Nat.add_comm]
    have hiff : ((writeParts language source folder 1 found).onDesk { d with files := made }).1 =
        .ok () ↔ ∀ k < found.length, made.Free (partPath language source folder (1 + k)) :=
      writeParts_ok_iff 1 found
    have hreads : ((writeParts language source folder 1 found).onDesk { d with files := made }).1 =
        .ok () → ∀ k (hk : k < found.length),
          ((writeParts language source folder 1 found).onDesk { d with files := made }).2.files.read
            (partPath language source folder (1 + k)) = .ok (Utf8.encode (partText found[k])) :=
      read_writeParts hname 1 found
    have hout : ((writeParts language source folder 1 found).onDesk { d with files := made }).2.out =
        d.out := out_writeParts 1 found
    simp only [Except.mapError]
    rw [onDesk_bind]
    generalize (writeParts language source folder 1 found).onDesk { d with files := made } = written at *
    rcases written with ⟨e | ⟨⟩, d'⟩
    · refine ⟨⟨fun h => by simp at h, fun h => ?_⟩, fun h => by simp at h, fun h => by simp at h,
        fun _ => hout⟩
      have := hiff.mpr (hroom.mp h)
      simp at this
    · simp only [onDesk_say]
      refine ⟨⟨fun _ => hroom.mpr (hiff.mp rfl), fun _ => rfl⟩, fun _ k hk => ?_, fun _ => ?_,
        fun h => absurd rfl h⟩
      · have hpart : found[k] ∈ found := List.getElem_mem hk
        apply linesIn_of_read (hparts _ hpart) (hunbroken _ hpart)
        rw [Nat.add_comm]
        exact hreads rfl k hk
      · rw [Desk.out_plus, hout]

end

/-! ## Command lines -/

section

variable {language : Language} {args : List String} {given : CommandLine.Given} {files : Files}
  {lines : List String}

theorem on_run (hgiven : (commandLine language).read args = .ok given) :
    (run language args).on files =
      (splitFile language (sourceOf given) (limitOf given)
        ((given.value? "--output-dir").getD "refactored")).onDesk ⟨files, "", "", [], 0⟩ :=
  onDesk_bind_of_ok (onDesk_given_ok hgiven)

/-- Every line of a file that is split stands in one part, in its place: the parts are not empty, are
numbered from one on, and give the lines of the file when they are read one after the other. -/
theorem run_keeps_lines (hgiven : (commandLine language).read args = .ok given)
    (hlimit : 1 ≤ limitOf given) (hlines : Survey.sourceLines files (sourceOf given) = .ok lines)
    (hover : limitOf given < lines.length) :
    ∃ parts : List (List String), parts.flatten = lines ∧ (∀ p ∈ parts, p ≠ []) ∧
      Delivers language (sourceOf given) (folderOf given) parts ⟨files, "", "", [], 0⟩
        ((run language args).on files) := by
  refine ⟨cut (.of language) (limitOf given).toNat lines, flatten_cut (by omega) _ lines,
    fun p hp => ne_nil_of_mem_cut hp, ?_⟩
  rw [on_run hgiven]
  exact delivers_splitFile (Path.slash_not_mem_name _) hlimit hlines hover

/-- A file with several kinds of line ends, an empty line, and a byte that is no text. -/
def mixedFile : Files :=
  ⟨"/w", [(["a.py"], .file [0x78, 0x0D, 0x0A, 0x0A, 0xFF, 0x64, 0x65, 0x66, 0x20, 0x66, 0x0C, 0x20, 0x79])]⟩

theorem mixedFile_kept :
    let result := (run .python ["a.py", "--max-lines", "1"]).on mixedFile
    result.1 = .ok () ∧
      ∃ parts : List (List String), parts.flatten = ["x", "", "def f", " y"] ∧ (∀ p ∈ parts, p ≠ []) ∧
        Delivers .python (.ofString "a.py") (.ofString "refactored") parts ⟨mixedFile, "", "", [], 0⟩
          result := by
  have hlines : Survey.sourceLines mixedFile (.ofString "a.py") = .ok ["x", "", "def f", " y"] := by
    decide +kernel
  exact ⟨eq_ok_of_isOk (by decide +kernel), @run_keeps_lines .python ["a.py", "--max-lines", "1"]
    ⟨[some "a.py"], [("--max-lines", "1")]⟩ mixedFile _ rfl (by decide +kernel) hlines
    (by decide +kernel)⟩

/-- The lines of the parts keep to the limit exactly if there was no need to split, if there was
nothing to split at, or if the openings of items are close enough to each other. -/
theorem run_within_limit_iff (hgiven : (commandLine language).read args = .ok given)
    (hlimit : 1 ≤ limitOf given) (hlines : Survey.sourceLines files (sourceOf given) = .ok lines) :
    ∃ parts : List (List String),
      (lines.length ≤ limitOf given → parts = [] ∧ (run language args).on files =
        (.ok (), ⟨files, "File is already within limit.\n", "", [], 0⟩)) ∧
      (limitOf given < lines.length → parts.flatten = lines ∧
        Delivers language (sourceOf given) (folderOf given) parts ⟨files, "", "", [], 0⟩
          ((run language args).on files)) ∧
      ((∀ p ∈ parts, p.length ≤ limitOf given) ↔
        lines.length ≤ limitOf given ∨ (∀ l ∈ lines.tail, (Opening.of language).matches l = false) ∨
          OpensWithin (.of language) (limitOf given).toNat lines) := by
  by_cases hover : limitOf given < lines.length
  · have hne : lines ≠ [] := by
      intro h
      simp [h] at hover
      omega
    refine ⟨cut (.of language) (limitOf given).toNat lines, fun h => absurd h (by omega),
      fun _ => ⟨flatten_cut (by omega) _ lines, ?_⟩, ?_⟩
    · rw [on_run hgiven]
      exact delivers_splitFile (Path.slash_not_mem_name _) hlimit hlines hover
    · rw [or_iff_right (show ¬(lines.length : Int) ≤ limitOf given by omega), ← cut_within_iff hne]
      refine forall₂_congr fun p _ => ?_
      omega
  · refine ⟨[], fun _ => ⟨rfl, ?_⟩, fun h => absurd h hover, by simp; omega⟩
    rw [on_run hgiven, onDesk_splitFile (d := ⟨files, "", "", [], 0⟩) hlines, if_pos (by omega)]
    rfl

def longFunction : Files := ⟨"/w", [(["a.py"],
  .file (Utf8.encode "import os\ndef f():\n    a()\n    b()\n"))]⟩

theorem longFunction_over_limit :
    let result := (run .python ["a.py", "--max-lines", "2"]).on longFunction
    result.1 = .ok () ∧
      ∃ parts, Delivers .python (.ofString "a.py") (.ofString "refactored") parts
          ⟨longFunction, "", "", [], 0⟩ result ∧
        ∃ p ∈ parts, 2 < p.length := by
  have hlines : Survey.sourceLines longFunction (.ofString "a.py") =
      .ok ["import os", "def f():", "    a()", "    b()"] := by
    decide +kernel
  obtain ⟨parts, -, hdelivers, hiff⟩ := @run_within_limit_iff .python ["a.py", "--max-lines", "2"]
    ⟨[some "a.py"], [("--max-lines", "2")]⟩ longFunction _ rfl (by decide +kernel) hlines
  refine ⟨eq_ok_of_isOk (by decide +kernel), parts, (hdelivers (by decide +kernel)).2, ?_⟩
  by_contra hshort
  have hlimit : limitOf ⟨[some "a.py"], [("--max-lines", "2")]⟩ = 2 := by decide +kernel
  rw [hlimit] at hiff
  have hparts : ∀ p ∈ parts, (p.length : Int) ≤ 2 := by
    intro p hp
    have : ¬2 < p.length := fun h => hshort ⟨p, hp, h⟩
    omega
  rcases hiff.mp hparts with h | h | h
  · simp at h
  · have := h "def f():" (by decide)
    revert this
    decide +kernel
  · obtain ⟨j, l, hij, hji, hj, hl⟩ := h 1 (by decide)
    have hsome : j = 2 ∨ j = 3 := by omega
    rcases hsome with rfl | rfl
    · cases hj
      revert hl
      decide +kernel
    · cases hj
      revert hl
      decide +kernel

end

end Workbench.Split
