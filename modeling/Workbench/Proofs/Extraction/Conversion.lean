import Workbench.Extraction.Command
import Workbench.Proofs.Extraction.Pool
import Workbench.Proofs.World.Files

/-!
# Conversions that fail

A PDF document is turned into text by a server. Where this fails the tool says so and stops, unless the
error counts as one of the request: the text that tells of it is then taken for the document.
-/

namespace Workbench

theorem Reply.body_of_refused {status : Nat} {refusal : String} {body : Except ReplyFault Value}
    (h : 400 ≤ status ∧ status < 600) :
    (Reply.answer status refusal body).body = .error ⟨true, refusal⟩ := if_pos (by simpa [refuses] using h)

theorem Reply.body_of_taken {status : Nat} {refusal : String} {body : Except ReplyFault Value}
    (h : ¬(400 ≤ status ∧ status < 600)) : (Reply.answer status refusal body).body = body :=
  if_neg (by simpa [refuses] using h)

/-- Where a file can be written there is one afterwards, even if its text has no bytes. -/
theorem Files.Change.on_writeText {files : Files} {name : String} (h : files.Free name)
    (text : String) :
    ∃ content, ((writeText name text).on files).2.read name = .ok content ∧
      (Half.occursIn text = false →
        ((writeText name text).on files).1 = .ok () ∧ content = Utf8.encode text) := by
  unfold writeText
  cases hhalf : Half.occursIn text with
  | true =>
    obtain ⟨files', hwrite⟩ := h
    rw [if_pos rfl, on_bind, on_step, hwrite]
    exact ⟨[], read_of_write hwrite, fun hno => by cases hno⟩
  | false =>
    obtain ⟨files', hwrite⟩ := (exists_write_iff (Utf8.encode text)).2 (free_iff.1 h)
    rw [if_neg Bool.false_ne_true, on_step, hwrite]
    exact ⟨_, read_of_write hwrite, fun _ => ⟨rfl, rfl⟩⟩

namespace Extraction

open Session

variable {around : Surroundings} {key name : String} {folder : Option String} {path : Path}
  {files : Files} {d : Desk}

/-! ## Mishaps -/

/-- How having a document turned into text can go wrong. -/
inductive Mishap where
  | noKey
  | unread (fault : FileFault)
  -- there is no answer: the request took too long, or something broke on the way
  | failed (fault : ReplyFault)
  | refused (refusal : String)
  | unreadable (fault : ReplyFault)
  | fieldless (body : Value)

inductive Meets (around : Surroundings) (files : Files) (path : Path) : Mishap → Prop
  | noKey : around.config.pdfKey = "" → Meets around files path .noKey
  | unread {fault : FileFault} : around.config.pdfKey ≠ "" →
      files.read path.toString = .error fault → Meets around files path (.unread fault)
  | failed {content : Bytes} {fault : ReplyFault} : around.config.pdfKey ≠ "" →
      files.read path.toString = .ok content → around.pdf = .failed fault →
      Meets around files path (.failed fault)
  | refused {content : Bytes} {status : Nat} {refusal : String} {body : Except ReplyFault Value} :
      around.config.pdfKey ≠ "" → files.read path.toString = .ok content →
      around.pdf = .answer status refusal body → 400 ≤ status ∧ status < 600 →
      Meets around files path (.refused refusal)
  | unreadable {content : Bytes} {status : Nat} {refusal : String} {fault : ReplyFault} :
      around.config.pdfKey ≠ "" → files.read path.toString = .ok content →
      around.pdf = .answer status refusal (.error fault) → ¬(400 ≤ status ∧ status < 600) →
      Meets around files path (.unreadable fault)
  | fieldless {content : Bytes} {status : Nat} {refusal : String} {body : Value} :
      around.config.pdfKey ≠ "" → files.read path.toString = .ok content →
      around.pdf = .answer status refusal (.ok body) → ¬(400 ≤ status ∧ status < 600) →
      (∀ fields, body ≠ .dict fields) → Meets around files path (.fieldless body)

def apology (text : String) : String :=
  "PDF conversion error: " ++ text ++ ". Please check MINERU_BASE_URL and MINERU_API_KEY."

/-- What is taken for the document after an error that counts as one of the request. -/
def Mishap.document? : Mishap → Option String
  | .failed fault | .unreadable fault => if fault.ofRequest then some (apology fault.text) else none
  | .refused refusal => some (apology refusal)
  | .noKey | .unread _ | .fieldless _ => none

inductive Outcome : Option String → Except PdfFault Value → Prop
  | told {f : PdfFault} : Outcome none (.error f)
  | taken {text : String} : Outcome (some text) (.ok (.str text))

theorem outcome_pdfContent {reply : Reply} {fault : ReplyFault} (h : reply.body = .error fault) :
    Outcome (if fault.ofRequest then some (apology fault.text) else none) (pdfContent reply) := by
  obtain ⟨ofRequest, text⟩ := fault
  unfold pdfContent
  rw [h]
  cases ofRequest with
  | true => exact .taken
  | false => exact .told

theorem onDesk_convertPdf {content : Bytes} (hkey : around.config.pdfKey ≠ "")
    (hread : d.files.read path.toString = .ok content) :
    ∃ posts, (convertPdf around path).onDesk d =
      (.ok (pdfContent around.pdf), { d with posts := posts }) := by
  unfold convertPdf
  rw [if_neg hkey, onDesk_bind_of_ok onDesk_files, hread]
  exact ⟨_, onDesk_bind_of_ok (onDesk_note _ _)⟩

theorem Meets.onDesk_convertPdf {m : Mishap} (h : Meets around d.files path m) :
    ∃ posts result, Outcome m.document? result ∧
      (convertPdf around path).onDesk d = (.ok result, { d with posts := posts }) := by
  cases h with
  | noKey hkey =>
    refine ⟨d.posts, .error .noKey, .told, ?_⟩
    unfold convertPdf
    rw [if_pos hkey]
    rfl
  | @unread fault hkey hread =>
    refine ⟨d.posts, .error (.broken (fault.message path.toString)), .told, ?_⟩
    unfold convertPdf
    rw [if_neg hkey, onDesk_bind_of_ok onDesk_files, hread]
    rfl
  | failed hkey hread hreply =>
    obtain ⟨posts, hposts⟩ := Extraction.onDesk_convertPdf hkey hread
    exact ⟨posts, _, outcome_pdfContent (hreply ▸ rfl), hposts⟩
  | refused hkey hread hreply hstatus =>
    obtain ⟨posts, hposts⟩ := Extraction.onDesk_convertPdf hkey hread
    have hbody := hreply ▸ Reply.body_of_refused hstatus
    exact ⟨posts, _, outcome_pdfContent hbody, hposts⟩
  | unreadable hkey hread hreply hstatus =>
    obtain ⟨posts, hposts⟩ := Extraction.onDesk_convertPdf hkey hread
    exact ⟨posts, _, outcome_pdfContent (hreply ▸ Reply.body_of_taken hstatus), hposts⟩
  | @fieldless _ _ _ body hkey hread hreply hstatus hbody =>
    obtain ⟨posts, hposts⟩ := Extraction.onDesk_convertPdf hkey hread
    rw [hreply, pdfContent, Reply.body_of_taken hstatus] at hposts
    cases body with
    | dict fields => exact absurd rfl (hbody fields)
    | null | bool _ | int _ | float _ | str _ | list _ => exact ⟨posts, _, .told, hposts⟩

theorem exists_meets (around : Surroundings) (files : Files) (path : Path) :
    (∃ m, Meets around files path m) ∨
      ∃ status refusal fields, ¬(400 ≤ status ∧ status < 600) ∧
        around.pdf = .answer status refusal (.ok (.dict fields)) := by
  by_cases hkey : around.config.pdfKey = ""
  · exact .inl ⟨_, .noKey hkey⟩
  · cases hread : files.read path.toString with
    | error fault => exact .inl ⟨_, .unread hkey hread⟩
    | ok content =>
      cases hreply : around.pdf with
      | failed fault => exact .inl ⟨_, .failed hkey hread hreply⟩
      | answer status refusal body =>
        by_cases hstatus : 400 ≤ status ∧ status < 600
        · exact .inl ⟨_, .refused hkey hread hreply hstatus⟩
        · cases body with
          | error fault => exact .inl ⟨_, .unreadable hkey hread hreply hstatus⟩
          | ok body =>
            by_cases hbody : ∃ fields, body = .dict fields
            · obtain ⟨fields, rfl⟩ := hbody
              exact .inr ⟨status, refusal, fields, hstatus, rfl⟩
            · exact .inl ⟨_, .fieldless hkey hread hreply hstatus fun fields h => hbody ⟨fields, h⟩⟩

/-! ## Runs of the tool -/

structure IsPdf (files : Files) (name : String) : Prop where
  present : ∃ item, files.present? (Path.ofString name) = .ok (some item)
  kind : Kind.ofPath? (Path.ofString name) = some .pdf

theorem IsPdf.onDesk_process (h : IsPdf d.files name) :
    (process around key name folder).onDesk d = (do
      match ← convertPdf around (Path.ofString name) with
      | .error f => return "未设定好pdf转化为md的工具: " ++ f.message
      | .ok (.str content) => extractInto around key (Path.ofString name) folder content
      | .ok _ => fail .notText : Session Fault String).onDesk d := by
  obtain ⟨item, hitem⟩ := h.present
  unfold process
  dsimp only
  rw [onDesk_bind_of_ok onDesk_files, hitem, onDesk_bind_of_ok (onDesk_demand_ok _ _), h.kind]
  rfl

def notice : String := "未设定好pdf转化为md的工具"

def Reports (run : Except (Stop Fault) String × Desk) : Prop := ∃ text, run.1 = .ok (notice ++ text)

def outputName (path : Path) (out : String) : String :=
  ((Path.ofString out).child (path.stem ++ "_extracted.md")).toString

def extraction (server : Server) (content : String) : String :=
  joined (textsOf server ((chunks chunkLimit (clean content.toList)).map String.ofList))

theorem onDesk_extractAll_desk {ε : Type} (config : Config) (server : Server) (parts : List String)
    (d : Desk) : ∃ posts pauses, (extractAll config server parts : Session ε String).onDesk d =
      (.ok (joined (textsOf server parts)), { d with posts := posts, pauses := pauses }) := by
  unfold extractAll
  rw [map_finishedChunks, assemble_of_perm (.refl _)]
  obtain ⟨posts, pauses, h⟩ := @onDesk_forIn_noteAttempts ε config server (sentChunks parts) d
  exact ⟨posts, pauses, onDesk_bind_of_ok h⟩

def deliver (folder : Path) (target text : String) : Session Fault String := do
  change .file (.ensure folder)
  change .file (.writeText target text)
  return target

theorem onDesk_extractInto (hkey : key ≠ "") (content : String) :
    ∃ posts pauses, (extractInto around key path folder content).onDesk d =
      (match folder with
        | none => fail .noFolder
        | some out => deliver (Path.ofString out) (outputName path out)
          (extraction around.server content) : Session Fault String).onDesk
        { d with posts := posts, pauses := pauses } := by
  obtain ⟨posts, pauses, h⟩ := @onDesk_extractAll_desk Fault around.config around.server
    ((chunks chunkLimit (clean content.toList)).map String.ofList) d
  refine ⟨posts, pauses, ?_⟩
  unfold extractInto
  dsimp only
  rw [if_neg hkey, onDesk_bind_of_ok h]
  rfl

theorem told_of_deliver {folder : Path} {target text told : String}
    (h : ((deliver folder target text).onDesk d).1 = .ok told) : told = target := by
  obtain ⟨-, d₁, -, h⟩ := onDesk_bind_eq_ok (Prod.ext h rfl)
  obtain ⟨-, d₂, -, h⟩ := onDesk_bind_eq_ok h
  cases h
  rfl

/-- Where the folder can be made and the file be written, there is a file afterwards, even if its text
has no bytes. -/
theorem written_deliver {folder : Path} {target : String}
    (hensure : (Files.Change.ensure folder).on d.files = (.ok (), files))
    (hfree : files.Free target) (text : String) :
    ∃ bytes, ((deliver folder target text).onDesk d).2.files.read target = .ok bytes ∧
      (Half.occursIn text = false →
        ((deliver folder target text).onDesk d).1 = .ok target ∧ bytes = Utf8.encode text) := by
  have hmade : (change Fault.file (.ensure folder)).onDesk d = (.ok (), { d with files := files }) := by
    rw [onDesk_change, hensure]
    rfl
  obtain ⟨bytes, hread, hok⟩ := Files.Change.on_writeText hfree text
  refine ⟨bytes, ?_⟩
  unfold deliver
  rw [onDesk_bind_of_ok hmade, onDesk_bind, onDesk_change]
  generalize (Files.Change.writeText target text).on files = written at hread hok
  obtain ⟨result, files'⟩ := written
  cases result with
  | ok => exact ⟨hread, fun hhalf => ⟨rfl, (hok hhalf).2⟩⟩
  | error e => exact ⟨hread, fun hhalf => by cases (hok hhalf).1⟩

theorem head?_notice_append (text : String) : (notice ++ text).toList.head? = some '未' := by
  rw [String.toList_append]
  rfl

theorem not_reports_extractInto {content : String}
    (h : ∀ out, folder = some out → ¬notice.toList <+: (outputName path out).toList) :
    ¬Reports ((extractInto around key path folder content).onDesk d) := by
  rintro ⟨text, hrun⟩
  by_cases hkey : key = ""
  · unfold extractInto at hrun
    dsimp only at hrun
    rw [if_pos hkey] at hrun
    have hhead := head?_notice_append text
    rw [← Except.ok.inj hrun] at hhead
    cases hhead
  · obtain ⟨posts, pauses, hinto⟩ := @onDesk_extractInto around key folder path d hkey content
    rw [hinto] at hrun
    cases folder with
    | none => cases hrun
    | some out =>
      refine h out rfl ⟨text.toList, ?_⟩
      rw [← told_of_deliver hrun, String.toList_append]

theorem reports_message (f : PdfFault) (d : Desk) :
    Reports (.ok ("未设定好pdf转化为md的工具: " ++ f.message), d) := by
  refine ⟨": " ++ f.message, ?_⟩
  rw [← String.append_assoc]
  rfl

/-- Every failed conversion is reported and leaves the files alone, unless the error counts as one of
the request: a refusal does, and any other error may, be it that there is no answer or that its body
cannot be read. Then the text about the error is worked on as if it were the document: nothing is
reported, and wherever a file can be written there is one in the end. -/
theorem failedConversion_reported (h : IsPdf d.files name) :
    ((∃ m, Meets around d.files (Path.ofString name) m) ∨
        ∃ status refusal fields, ¬(400 ≤ status ∧ status < 600) ∧
          around.pdf = .answer status refusal (.ok (.dict fields))) ∧
      ∀ m, Meets around d.files (Path.ofString name) m →
        (m.document? = none → Reports ((process around key name folder).onDesk d) ∧
          ((process around key name folder).onDesk d).2.files = d.files) ∧
        ∀ text, m.document? = some text →
          ((∀ out, folder = some out →
              ¬notice.toList <+: (outputName (Path.ofString name) out).toList) →
            ¬Reports ((process around key name folder).onDesk d)) ∧
          ∀ out files, key ≠ "" → folder = some out →
            (Files.Change.ensure (Path.ofString out)).on d.files = (.ok (), files) →
            files.Free (outputName (Path.ofString name) out) →
            ∃ bytes, ((process around key name folder).onDesk d).2.files.read
                (outputName (Path.ofString name) out) = .ok bytes ∧
              (Half.occursIn (extraction around.server text) = false →
                ((process around key name folder).onDesk d).1 =
                    .ok (outputName (Path.ofString name) out) ∧
                  bytes = Utf8.encode (extraction around.server text)) := by
  refine ⟨exists_meets around d.files (Path.ofString name), fun m hm => ?_⟩
  rw [h.onDesk_process]
  obtain ⟨posts, result, houtcome, hconvert⟩ := hm.onDesk_convertPdf
  rw [onDesk_bind_of_ok hconvert]
  generalize m.document? = document at houtcome
  cases houtcome with
  | @told f => exact ⟨fun _ => ⟨reports_message f _, rfl⟩, nofun⟩
  | @taken text =>
    refine ⟨nofun, fun _ htext => ?_⟩
    cases htext
    refine ⟨not_reports_extractInto, fun out files hkey hfolder hensure hfree => ?_⟩
    subst hfolder
    obtain ⟨posts', pauses, hinto⟩ := @onDesk_extractInto around key (some out)
      (Path.ofString name) { d with posts := posts } hkey text
    dsimp only
    rw [hinto]
    exact @written_deliver files { d with posts := posts', pauses := pauses } (Path.ofString out)
      (outputName (Path.ofString name) out) hensure hfree (extraction around.server text)

def lonePdf : Files := ⟨"/w", [(["a.pdf"], .file [0x25, 0x50, 0x44, 0x46])]⟩

def outOfService : Surroundings where
  config := ⟨"k", "http://d", "m", "mk", "http://m/v1"⟩
  server _ _ _ := .failed ⟨true, "no reply"⟩
  pdf := .answer 503 "503 Error" (.error ⟨true, "no body"⟩)

/-- A server that is out of service leaves an empty file and no report. -/
theorem outOfService_unreported :
    let run := (process outOfService "k" "a.pdf" (some "out")).onDesk ⟨lonePdf, "", "", [], 0⟩
    ¬Reports run ∧ run.1 = .ok "out/a_extracted.md" ∧
      run.2.files.read "out/a_extracted.md" = .ok [] ∧
      lonePdf.read "out/a_extracted.md" = .error .notFound := by
  have hpdf : IsPdf lonePdf "a.pdf" := ⟨⟨_, rfl⟩, by decide +kernel⟩
  have hmeets : Meets outOfService lonePdf (.ofString "a.pdf") (.refused "503 Error") :=
    .refused (by decide) rfl rfl (by decide)
  have hname : outputName (.ofString "a.pdf") "out" = "out/a_extracted.md" := by decide +kernel
  have hnothing : extraction outOfService.server
      "PDF conversion error: 503 Error. Please check MINERU_BASE_URL and MINERU_API_KEY." = "" := by
    decide +kernel
  obtain ⟨-, hmishap⟩ := @failedConversion_reported outOfService "k" "a.pdf" (some "out")
    ⟨lonePdf, "", "", [], 0⟩ hpdf
  obtain ⟨hquiet, hwritten⟩ := (hmishap _ hmeets).2
    "PDF conversion error: 503 Error. Please check MINERU_BASE_URL and MINERU_API_KEY." rfl
  obtain ⟨bytes, hread, hall⟩ := hwritten "out" _ (by decide) rfl rfl ⟨_, rfl⟩
  rw [hnothing, hname] at hall
  rw [hname] at hread
  obtain ⟨htold, rfl⟩ := hall (by decide)
  refine ⟨hquiet fun out hout => ?_, htold, hread, rfl⟩
  cases hout
  rw [hname]
  decide

end Extraction

end Workbench
