import Workbench.Proofs.Extraction.Conversion

/-!
# Chunks that are lost

A chunk is lost if it shows a sign of mathematics and every attempt at it failed. A lost chunk does not
stop the tool: there is nothing in its place, and the rest is extracted and written as if there had been
nothing in the chunk. Only without a key does the tool say that the extraction failed.
-/

namespace Workbench

theorem Files.present?_of_read {files : Files} {path : Path} {content : Bytes}
    (h : files.read path.toString = .ok content) : files.present? path = .ok (some (.file content)) := by
  unfold read at h
  unfold present?
  cases hlook : files.look path.toString with
  | error f => rw [hlook] at h; cases h
  | ok item =>
    rw [hlook] at h
    cases item with
    | folder => cases h
    | file bytes =>
      cases h
      rfl

namespace Extraction

open Session

variable {around : Surroundings} {replies : Replies} {key name text chunk : String}
  {folder : Option String} {path : Path} {files : Files} {content : Bytes} {d : Desk}

structure IsText (files : Files) (name : String) (content : Bytes) : Prop where
  read : files.read (Path.ofString name).toString = .ok content
  kind : Kind.ofPath? (Path.ofString name) = some .text

theorem IsText.onDesk_process (h : IsText d.files name content) :
    (process around key name folder).onDesk d =
      (extractInto around key (Path.ofString name) folder (documentText content)).onDesk d := by
  unfold process
  dsimp only
  rw [onDesk_bind_of_ok onDesk_files, Files.present?_of_read h.read,
    onDesk_bind_of_ok (onDesk_demand_ok _ _), h.kind]
  dsimp only
  rw [if_neg (by simp), onDesk_bind_of_ok onDesk_files, h.read]
  exact onDesk_bind_of_ok (onDesk_demand_ok _ _)

/-! ## Lost chunks -/

def documentChunks (text : String) : List String :=
  (chunks chunkLimit (clean text.toList)).map String.ofList

/-- The chunk shows a sign of mathematics, and every attempt at it fails. -/
def Lost (replies : Replies) (chunk : String) : Prop :=
  HasKeyword chunk ∧ ∀ j < attemptLimit, Fails replies j

theorem Lost.eq_empty (h : Lost replies chunk) (htext : Extracts replies chunk text) : text = "" := by
  obtain ⟨hkey, hfails⟩ := h
  cases htext with
  | unsent hno => exact absurd hkey hno
  | good k _ hk _ hgood =>
    obtain ⟨f, hf⟩ := hfails k hk
    cases hf.symm.trans hgood
  | failed _ _ => rfl

/-- What is put in the place of a chunk: nothing if the chunk is lost. -/
def Stands (replies : Replies) (chunk text : String) : Prop :=
  Extracts replies chunk text ∧ (Lost replies chunk → text = "")

theorem stands_textsOf (server : Server) (chunks : List String) :
    List.Forall₂ (fun p => Stands (server p.2 p.1) p.1) chunks.zipIdx (textsOf server chunks) :=
  (extracts_textsOf server chunks).imp fun _ _ h => ⟨h, fun hlost => hlost.eq_empty h⟩

/-! ## Runs on text documents -/

def complaint : String := "Extraction failed"

def Complains (run : Except (Stop Fault) String × Desk) : Prop := ∃ text, run.1 = .ok (complaint ++ text)

theorem onDesk_extractInto_noKey (text : String) :
    (extractInto around "" path folder text).onDesk d =
      (.ok (complaint ++ ": Missing EXTRACTION_API_KEY"), d) := rfl

theorem not_complains_extractInto (hkey : key ≠ "")
    (h : ∀ out, folder = some out → ¬complaint.toList <+: (outputName path out).toList) :
    ¬Complains ((extractInto around key path folder text).onDesk d) := by
  rintro ⟨rest, hrun⟩
  obtain ⟨posts, pauses, hinto⟩ := @onDesk_extractInto around key folder path d hkey text
  rw [hinto] at hrun
  cases folder with
  | none => cases hrun
  | some out =>
    refine h out rfl ⟨rest.toList, ?_⟩
    rw [← told_of_deliver hrun, String.toList_append]

/-- Where the folder can be made and the file be written, there is a file afterwards. -/
theorem IsText.written_process {out : String} (h : IsText d.files name content) (hkey : key ≠ "")
    (hensure : (Files.Change.ensure (Path.ofString out)).on d.files = (.ok (), files))
    (hfree : files.Free (outputName (Path.ofString name) out)) :
    ∃ bytes, ((process around key name (some out)).onDesk d).2.files.read
        (outputName (Path.ofString name) out) = .ok bytes ∧
      (Half.occursIn (extraction around.server (documentText content)) = false →
        ((process around key name (some out)).onDesk d).1 = .ok (outputName (Path.ofString name) out) ∧
          bytes = Utf8.encode (extraction around.server (documentText content))) := by
  obtain ⟨posts, pauses, hinto⟩ := @onDesk_extractInto around key (some out)
    (Path.ofString name) d hkey (documentText content)
  rw [h.onDesk_process, hinto]
  exact @written_deliver files { d with posts := posts, pauses := pauses } (Path.ofString out)
    (outputName (Path.ofString name) out) hensure hfree
    (extraction around.server (documentText content))

/-- On a text document the tool says that the extraction failed exactly if it has no key (or if it says
where the output is and this begins with those words), and without a key nothing is sent and nothing
written. With one, lost chunks are left out and the run goes on: wherever a file can be written there is
one in the end, with what stands for the chunks, and its name is told, whether or not chunks were lost;
only a text that has no bytes makes it fail. -/
theorem lostChunks_leftOut (h : IsText d.files name content) :
    ((∀ out, folder = some out →
        ¬complaint.toList <+: (outputName (Path.ofString name) out).toList) →
      (Complains ((process around key name folder).onDesk d) ↔ key = "")) ∧
    (key = "" → ((process around key name folder).onDesk d).2 = d) ∧
    ∃ texts, List.Forall₂ (fun p => Stands (around.server p.2 p.1) p.1)
        (documentChunks (documentText content)).zipIdx texts ∧
      ∀ out files, key ≠ "" → folder = some out →
        (Files.Change.ensure (Path.ofString out)).on d.files = (.ok (), files) →
        files.Free (outputName (Path.ofString name) out) →
        ∃ bytes, ((process around key name folder).onDesk d).2.files.read
            (outputName (Path.ofString name) out) = .ok bytes ∧
          (Half.occursIn (joined texts) = false →
            ((process around key name folder).onDesk d).1 = .ok (outputName (Path.ofString name) out) ∧
              bytes = Utf8.encode (joined texts)) := by
  rw [h.onDesk_process]
  refine ⟨fun hname => ⟨fun hcomplains => ?_, ?_⟩, ?_, _, stands_textsOf _ _, ?_⟩
  · by_contra hkey
    exact not_complains_extractInto hkey hname hcomplains
  · rintro rfl
    exact ⟨_, congrArg Prod.fst (onDesk_extractInto_noKey _)⟩
  · rintro rfl
    exact congrArg Prod.snd (onDesk_extractInto_noKey _)
  · intro out files hkey hfolder hensure hfree
    subst hfolder
    rw [← h.onDesk_process]
    exact h.written_process hkey hensure hfree

def loneText : Files := ⟨"/w", [(["a.md"], .file [0x61, 0x20, 0x3D, 0x20, 0x31])]⟩

theorem isText_loneText : IsText loneText "a.md" [0x61, 0x20, 0x3D, 0x20, 0x31] :=
  ⟨rfl, by decide +kernel⟩

theorem documentText_loneText : documentText [0x61, 0x20, 0x3D, 0x20, 0x31] = "a = 1" := by
  decide +kernel

theorem outputName_loneText : outputName (.ofString "a.md") "out" = "out/a_extracted.md" := by
  decide +kernel

theorem documentChunks_loneText : documentChunks "a = 1" = ["a = 1"] := by decide +kernel

theorem extraction_outOfService : extraction outOfService.server "a = 1" = "" := by decide +kernel

theorem complaint_not_prefix {out : String} (h : some "out" = some out) :
    ¬complaint.toList <+: (outputName (.ofString "a.md") out).toList := by
  cases h
  rw [outputName_loneText]
  decide

theorem lost_loneText : Lost (outOfService.server 0 "a = 1") "a = 1" :=
  ⟨isMathematical_iff.1 (by decide +kernel), fun _ _ => ⟨_, rfl⟩⟩

/-- Every attempt at the only chunk of a document fails, and the run ends well, with an empty file. -/
theorem lostChunk_unreported :
    let run := (process outOfService "k" "a.md" (some "out")).onDesk ⟨loneText, "", "", [], 0⟩
    IsText loneText "a.md" [0x61, 0x20, 0x3D, 0x20, 0x31] ∧
      "a = 1" ∈ documentChunks (documentText [0x61, 0x20, 0x3D, 0x20, 0x31]) ∧
      Lost (outOfService.server 0 "a = 1") "a = 1" ∧ ¬Complains run ∧ run.1 = .ok "out/a_extracted.md" ∧
      loneText.read "out/a_extracted.md" = .error .notFound ∧
      run.2.files.read "out/a_extracted.md" = .ok [] := by
  have hquiet : ¬Complains ((process outOfService "k" "a.md" (some "out")).onDesk
      ⟨loneText, "", "", [], 0⟩) := by
    rw [IsText.onDesk_process isText_loneText]
    exact not_complains_extractInto (by decide) fun _ => complaint_not_prefix
  obtain ⟨bytes, hread, hall⟩ := @IsText.written_process outOfService "k" "a.md" _ _
    ⟨loneText, "", "", [], 0⟩ "out" isText_loneText (by decide) rfl ⟨_, rfl⟩
  rw [documentText_loneText, extraction_outOfService, outputName_loneText] at hall
  rw [outputName_loneText] at hread
  obtain ⟨htold, rfl⟩ := hall (by decide)
  have hchunk : "a = 1" ∈ documentChunks (documentText [0x61, 0x20, 0x3D, 0x20, 0x31]) := by
    rw [documentText_loneText, documentChunks_loneText]
    exact List.mem_singleton_self _
  exact ⟨isText_loneText, hchunk, lost_loneText, hquiet, htold, rfl, hread⟩

/-- Without a key the run is told to have failed; with one, an empty file stands for the lost chunk. -/
theorem loneText_leftOut :
    let keyless := (process outOfService "" "a.md" (some "out")).onDesk ⟨loneText, "", "", [], 0⟩
    let run := (process outOfService "k" "a.md" (some "out")).onDesk ⟨loneText, "", "", [], 0⟩
    Complains keyless ∧ keyless.2 = ⟨loneText, "", "", [], 0⟩ ∧ run.1 = .ok "out/a_extracted.md" ∧
      run.2.files.read "out/a_extracted.md" = .ok [] := by
  obtain ⟨hcomplains, hkept, -⟩ := @lostChunks_leftOut outOfService "" "a.md" (some "out") _
    ⟨loneText, "", "", [], 0⟩ isText_loneText
  obtain ⟨-, -, texts, hstands, hwritten⟩ := @lostChunks_leftOut outOfService "k" "a.md" (some "out") _
    ⟨loneText, "", "", [], 0⟩ isText_loneText
  have htexts : joined texts = "" := by
    rw [documentText_loneText, documentChunks_loneText] at hstands
    obtain ⟨text, _, htext, ⟨⟩, rfl⟩ := List.forall₂_cons_left_iff.1 hstands
    rw [htext.2 lost_loneText]
    rfl
  obtain ⟨bytes, hread, hall⟩ := hwritten "out" _ (by decide) rfl rfl ⟨_, rfl⟩
  rw [htexts, outputName_loneText] at hall
  rw [outputName_loneText] at hread
  obtain ⟨htold, rfl⟩ := hall (by decide)
  exact ⟨(hcomplains fun _ => complaint_not_prefix).2 rfl, hkept rfl, htold, hread⟩

end Extraction

end Workbench
