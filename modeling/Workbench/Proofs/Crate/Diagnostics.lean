import Workbench.Crate.Command
import Workbench.Proofs.Data.Documents
import Workbench.Proofs.Data.Fragments
import Workbench.Proofs.Text.Lines
import Workbench.Proofs.Text.Utf8
import Workbench.Proofs.World.Files

/-!
# Which errors are shown

A compiler prints one message to a line. A message is read where its line is not cut and it stays
within the limits of the reading; the errors among these are shown, in their order. A line that is cut
shows nothing at all.
-/

namespace Workbench.Crate

open Session

/-! ## Errors -/

def IsError (message : Value) : Prop :=
  (message.field? "reason").bind Value.str? = some "compiler-message" ∧
    ((message.field? "message").bind (Value.field? "level")).bind Value.str? = some "error"

instance (message : Value) : Decidable (IsError message) :=
  inferInstanceAs (Decidable (_ ∧ _))

def rendered (message : Value) : Value :=
  ((message.field? "message").bind (Value.field? "rendered")).getD (.str "")

theorem bind_str?_eq_some_iff {v : Option Value} {s : String} :
    v.bind Value.str? = some s ↔ v = some (.str s) := by
  cases v with
  | none => simp
  | some v => cases v <;> simp [Value.str?]

theorem isError_iff {message : Value} :
    IsError message ↔ message.field? "reason" = some (.str "compiler-message") ∧
      (message.field? "message").bind (Value.field? "level") = some (.str "error") := by
  rw [IsError, bind_str?_eq_some_iff, bind_str?_eq_some_iff]

theorem errorOf?_eq (message : Value) :
    errorOf? message = if IsError message then some (rendered message) else none := by
  unfold errorOf?
  split
  · next body hreason hbody =>
    split
    · next hlevel =>
      have herror : IsError message := isError_iff.2 ⟨hreason, by rw [hbody]; exact hlevel⟩
      rw [if_pos herror, rendered, hbody]
      rfl
    · next hlevel =>
      have hnone : ¬IsError message := fun h => by
        rw [isError_iff, hbody] at h
        exact hlevel h.2
      rw [if_neg hnone]
  · next hother =>
    have hnone : ¬IsError message := fun h => by
      rw [isError_iff] at h
      obtain ⟨body, hbody, -⟩ := Option.bind_eq_some_iff.1 h.2
      exact hother body h.1 hbody
    rw [if_neg hnone]

/-! ## Messages -/

/-- A message as it is printed: a document on one line, with no control characters in it. -/
structure Message where
  document : Json.Document
  line : String
  written : Json.Spaced document.symbols line.toList
  plain : ∀ c ∈ line.toList, 0x20 ≤ c.toNat

namespace Message

def value (m : Message) : Value := m.document.value

/-- The line holds no line or paragraph separator and no `U+0085`, which would cut it, and the document
stays within the limits of the reading. -/
def Legible (limits : Json.Limits) (m : Message) : Prop :=
  (∀ c ∈ m.line.toList, c.toNat ≠ 0x85 ∧ c.toNat ≠ 0x2028 ∧ c.toNat ≠ 0x2029) ∧
    m.document.fits limits 0 = true

instance (limits : Json.Limits) (m : Message) : Decidable (m.Legible limits) :=
  haveI := List.decidableBAll (fun c : Char => c.toNat ≠ 0x85 ∧ c.toNat ≠ 0x2028 ∧ c.toNat ≠ 0x2029)
    m.line.toList
  inferInstanceAs (Decidable (_ ∧ _))

theorem carriageReturn_not_mem (m : Message) : '\r' ∉ m.line.toList := fun h =>
  absurd (m.plain _ h) (by decide)

theorem large_of_isLineEnd (m : Message) {c : Char} (hc : c ∈ m.line.toList)
    (hend : Text.isLineEnd c = true) : 0x7F < c.toNat := by
  have hplain := m.plain c hc
  simp only [Text.isLineEnd, Bool.or_eq_true, Bool.and_eq_true, decide_eq_true_eq, beq_iff_eq] at hend
  omega

theorem unbroken_iff (m : Message) : Text.Unbroken m.line.toList ↔
    ∀ c ∈ m.line.toList, c.toNat ≠ 0x85 ∧ c.toNat ≠ 0x2028 ∧ c.toNat ≠ 0x2029 := by
  refine forall₂_congr fun c hc => ?_
  have hreturn : c ≠ '\r' := fun h => m.carriageReturn_not_mem (h ▸ hc)
  have hplain := m.plain c hc
  simp only [Text.isLineEnd, Bool.or_eq_false_iff, Bool.and_eq_false_iff, decide_eq_false_iff_not,
    beq_eq_false_iff_ne]
  constructor
  · rintro ⟨-, ⟨⟨-, h₁⟩, h₂⟩, h₃⟩
    exact ⟨h₁, h₂, h₃⟩
  · rintro ⟨h₁, h₂, h₃⟩
    exact ⟨hreturn, ⟨⟨⟨by omega, by omega⟩, h₁⟩, h₂⟩, h₃⟩

end Message

/-! ## The lines of a message -/

section
variable {limits : Json.Limits}

def shownBy (limits : Json.Limits) (line : String) : Option Value :=
  ((Json.read limits line).toOption).bind errorOf?

theorem shownBy_line (m : Message) :
    shownBy limits m.line =
      if IsError m.value ∧ m.document.fits limits 0 = true then some (rendered m.value) else none := by
  rw [shownBy, Json.Document.read_of_spaced m.written]
  cases m.document.fits limits 0 with
  | true =>
    simp only [if_true, Option.bind_some, errorOf?_eq, and_true]
    rfl
  | false => simp

theorem shownBy_of_field? {line : String} (h : ∀ v, Json.read limits line = .ok v →
    v.field? "reason" = none) : shownBy limits line = none := by
  unfold shownBy
  cases hread : Json.read limits line with
  | error fault => rfl
  | ok v =>
    have hnone : ¬IsError v := by
      rw [isError_iff, h v hread]
      rintro ⟨hreason, -⟩
      cases hreason
    change errorOf? v = none
    rw [errorOf?_eq, if_neg hnone]

theorem shownBy_piece (m : Message) {x : List Char}
    (hx : x ∈ Text.linesFrom [] (m.line.toList ++ ['\n'])) (hcut : ¬Text.Unbroken m.line.toList) :
    shownBy limits (String.ofList x) = none := by
  have htokens := Json.tokens_of_spaced m.written m.document.apart_tokens
  apply shownBy_of_field?
  intro v hread
  obtain ⟨-, hwhole⟩ | ⟨a, c, b, hc, hline, rfl⟩ | ⟨a, c, b, hc, hline⟩ :=
    Text.cut_of_mem_linesFrom m.carriageReturn_not_mem hx
  · exact absurd hwhole hcut
  · have hlarge := m.large_of_isLineEnd (by rw [hline]; simp) hc
    rw [hline] at htokens
    have hopen := Json.tokens_before_cut hlarge (congrArg Prod.snd htokens)
    have hwhole := (Json.read_eq_ok hread).1
    rw [String.toList_ofList] at hwhole
    exact absurd (hopen.symm.trans hwhole) Bool.false_ne_true
  · have hlarge := m.large_of_isLineEnd (by rw [hline]; simp) hc
    rw [hline, ← String.toList_ofList (l := x)] at htokens
    have hreason : ¬Json.HoldsMark "reason".toList := by
      rintro ⟨d, hd, hmark⟩
      have hnone : "reason".toList.all (fun d => (Json.mark? d).isNone) = true := by decide
      simp [Option.isNone_iff_eq_none.1 (List.all_eq_true.1 hnone d hd)] at hmark
    exact Json.field?_after_cut hlarge htokens m.document.apart_tokens hreason (by decide) hread

theorem filterMap_shownBy (m : Message) :
    ((Text.linesFrom [] (m.line.toList ++ ['\n'])).map String.ofList).filterMap (shownBy limits) =
      if IsError m.value ∧ m.Legible limits then [rendered m.value] else [] := by
  by_cases hcut : Text.Unbroken m.line.toList
  · rw [Text.linesFrom_append hcut]
    have hlegible : m.Legible limits ↔ m.document.fits limits 0 = true :=
      ⟨fun h => h.2, fun h => ⟨m.unbroken_iff.1 hcut, h⟩⟩
    have hshown := @shownBy_line limits m
    by_cases h : IsError m.value ∧ m.document.fits limits 0 = true
    · rw [if_pos h] at hshown
      rw [if_pos ⟨h.1, hlegible.2 h.2⟩]
      simp [Text.linesFrom, hshown]
    · rw [if_neg h] at hshown
      rw [if_neg fun h' => h ⟨h'.1, hlegible.1 h'.2⟩]
      simp [Text.linesFrom, hshown]
  · rw [if_neg fun h => hcut (m.unbroken_iff.2 h.2.1), List.filterMap_eq_nil_iff]
    intro piece hpiece
    obtain ⟨x, hx, rfl⟩ := List.mem_map.1 hpiece
    exact shownBy_piece m hx hcut

theorem errorsIn_printed (messages : List Message) :
    errorsIn limits (printed (messages.map Message.line)) =
      (messages.filter fun m => IsError m.value ∧ m.Legible limits).map fun m => rendered m.value := by
  change (Text.lines _).filterMap (shownBy limits) = _
  induction messages with
  | nil => rfl
  | cons m messages ih =>
    rw [Text.lines] at ih ⊢
    rw [List.map_cons, printed_cons, String.toList_append, String.toList_append, List.append_assoc]
    change ((Text.linesFrom [] (_ ++ '\n' :: (printed _).toList)).map _).filterMap _ = _
    rw [Text.linesFrom_lineFeed m.carriageReturn_not_mem, List.map_append, List.filterMap_append, ih,
      filterMap_shownBy]
    by_cases h : IsError m.value ∧ m.Legible limits
    · rw [if_pos h, List.filter_cons_of_pos (by simpa using h)]
      rfl
    · rw [if_neg h, List.filter_cons_of_neg (by simpa using h)]
      rfl

end

/-! ## What the tool tells -/

/-- What is told about some errors: the errors, if they are texts, or that there are none. -/
def verdict (formatted : String) (errors : List Value) : Except (Stop Fault) String :=
  if errors = [] then .ok ("SUCCESS\n" ++ formatted)
  else
    match errors.mapM Value.str? with
    | some texts => .ok (String.intercalate "\n" texts)
    | none => .error (.fault .notText)

theorem onDesk_mapM_texts {f : Value → Session Fault String} (d : Desk)
    (hf : ∀ v, (f v).onDesk d = match v.str? with
      | some s => (.ok s, d)
      | none => (.error (.fault .notText), d)) (errors : List Value) :
    (errors.mapM f).onDesk d = match errors.mapM Value.str? with
      | some texts => (.ok texts, d)
      | none => (.error (.fault .notText), d) := by
  induction errors with
  | nil => rfl
  | cons v errors ih =>
    rw [List.mapM_cons, List.mapM_cons, onDesk_bind, hf]
    cases v.str? with
    | none => rfl
    | some s =>
      dsimp only
      rw [onDesk_bind, ih]
      cases errors.mapM Value.str? <;> rfl

theorem onDesk_joinErrors (errors : List Value) (d : Desk) :
    (joinErrors errors).onDesk d =
      match errors.mapM Value.str? with
      | some texts => (.ok (String.intercalate "\n" texts), d)
      | none => (.error (.fault .notText), d) := by
  unfold joinErrors
  rw [onDesk_bind, onDesk_mapM_texts d (fun v => by cases v <;> rfl)]
  cases errors.mapM Value.str? <;> rfl

section
variable {tools : Toolchain} {code name text : String} {d d' : Desk}

theorem onDesk_writeText (hbytes : Half.occursIn text = false) :
    (change Fault.file (.writeText name text)).onDesk d =
      match d.files.write name (Utf8.encode text) with
      | .ok files => (.ok (), { d with files := files })
      | .error e => (.error (.fault (.file e)), d) := by
  rw [onDesk_change, Files.Change.writeText, if_neg (by rw [hbytes]; exact Bool.false_ne_true),
    Files.Change.on_step]
  cases d.files.write name (Utf8.encode text) <;> rfl

theorem written_of_writeText (h : (change Fault.file (.writeText name text)).onDesk d = (.ok (), d')) :
    d.files.write name (Utf8.encode text) = .ok d'.files := by
  cases hbytes : Half.occursIn text with
  | true =>
    rw [onDesk_change, Files.Change.writeText, if_pos hbytes, Files.Change.on_bind,
      Files.Change.on_step] at h
    cases hw : d.files.write name [] with
    | error e =>
      rw [hw] at h
      cases h
    | ok files =>
      rw [hw] at h
      cases h
  | false =>
    rw [onDesk_writeText hbytes] at h
    cases hw : d.files.write name (Utf8.encode text) with
    | error e =>
      rw [hw] at h
      cases h
    | ok files =>
      rw [hw] at h
      cases h
      rfl

theorem onDesk_readText (h : d.files.read name = .ok (Utf8.encode text)) :
    (readText name).onDesk d = (.ok (Text.plainNewlines text), d) := by
  have htext : d.files.strictText name = .ok (Text.plainNewlines text) := by
    unfold Files.strictText
    rw [h]
    dsimp only
    rw [Utf8.decode_encode]
  unfold readText
  rw [onDesk_bind_of_ok onDesk_files, htext]
  rfl

theorem source_of_writePackage (h : (writePackage tools code).onDesk d = (.ok (), d')) :
    d'.files.read tools.sourceFile = .ok (Utf8.encode code) ∧ d'.files.Free tools.sourceFile := by
  unfold writePackage at h
  obtain ⟨-, d₁, -, h⟩ := onDesk_bind_eq_ok h
  obtain ⟨-, d₂, -, h⟩ := onDesk_bind_eq_ok h
  obtain ⟨-, d₃, -, h⟩ := onDesk_bind_eq_ok h
  have hw := written_of_writeText h
  refine ⟨Files.read_of_write hw, (Files.free_of_write hw _).2 ?_⟩
  exact Files.free_iff.2 ((Files.exists_write_iff _).1 ⟨_, hw⟩)

theorem onDesk_success (hcode : d.files.read tools.sourceFile = .ok (Utf8.encode code))
    (hfree : d.files.Free tools.sourceFile)
    (hformatted : ∀ text, tools.formatted = some text → Half.occursIn text = false) :
    ∃ d', (do
      if let some text := tools.formatted then
        change .file (.writeText tools.sourceFile text)
      return "SUCCESS\n" ++ (← readText tools.sourceFile) : Session Fault String).onDesk d =
        (.ok ("SUCCESS\n" ++ Text.plainNewlines (tools.formatted.getD code)), d') := by
  cases hf : tools.formatted with
  | none =>
    refine ⟨d, ?_⟩
    exact onDesk_bind_of_ok (onDesk_readText hcode)
  | some text =>
    obtain ⟨files, hw⟩ := (Files.exists_write_iff (Utf8.encode text)).2 (Files.free_iff.1 hfree)
    have hchange : (change Fault.file (.writeText tools.sourceFile text)).onDesk d =
        (.ok (), { d with files := files }) := by
      rw [onDesk_writeText (hformatted text hf), hw]
    have hread := Files.read_of_write hw
    refine ⟨{ d with files := files }, ?_⟩
    refine (onDesk_bind_of_ok hchange).trans ?_
    exact onDesk_bind_of_ok (onDesk_readText hread)

theorem check_printed {output : String} (hpackage : ((writePackage tools code).onDesk d).1 = .ok ())
    (hformatted : ∀ text, tools.formatted = some text → Half.occursIn text = false)
    (hcargo : tools.check = .printed output) :
    ((check tools code).onDesk d).1 =
      verdict (Text.plainNewlines (tools.formatted.getD code)) (errorsIn tools.limits output) := by
  rcases hdone : (writePackage tools code).onDesk d with ⟨result, d'⟩
  rw [hdone] at hpackage
  cases hpackage
  obtain ⟨hcode, hfree⟩ := source_of_writePackage hdone
  unfold check verdict
  rw [onDesk_bind_of_ok hdone, hcargo]
  dsimp only
  cases errorsIn tools.limits output with
  | nil =>
    obtain ⟨d₂, hsuccess⟩ := onDesk_success hcode hfree hformatted
    exact congrArg Prod.fst hsuccess
  | cons v errors =>
    change ((joinErrors (v :: errors)).onDesk _).1 = _
    rw [onDesk_joinErrors, if_neg (List.cons_ne_nil v errors)]
    cases (v :: errors).mapM Value.str? <;> rfl

/-- The tool tells of the errors that are legible, in their order, and of no others: it says that there
are none where none is legible. So it finds all errors exactly where all of them are legible. -/
theorem check_legibleErrors (messages : List Message)
    (hpackage : ((writePackage tools code).onDesk d).1 = .ok ())
    (hformatted : ∀ text, tools.formatted = some text → Half.occursIn text = false)
    (hcargo : tools.check = .printed (printed (messages.map Message.line))) :
    ((check tools code).onDesk d).1 =
        verdict (Text.plainNewlines (tools.formatted.getD code))
          ((messages.filter fun m => IsError m.value ∧ m.Legible tools.limits).map
            fun m => rendered m.value) ∧
      (errorsIn tools.limits (printed (messages.map Message.line)) =
          ((messages.filter fun m => IsError m.value).map fun m => rendered m.value) ↔
        ∀ m ∈ messages, IsError m.value → m.Legible tools.limits) := by
  refine ⟨?_, ?_⟩
  · rw [check_printed hpackage hformatted hcargo, errorsIn_printed]
  · have hfilter : (messages.filter fun m => IsError m.value ∧ m.Legible tools.limits) =
        (messages.filter fun m => IsError m.value).filter fun m => m.Legible tools.limits := by
      simp [List.filter_filter, and_comm]
    rw [errorsIn_printed, hfilter]
    constructor
    · intro h m hm herror
      -- as many errors are legible as there are
      have hlength := congrArg List.length h
      rw [List.length_map, List.length_map, List.length_filter_eq_length_iff] at hlength
      simpa using hlength m (by simpa using ⟨hm, herror⟩)
    · intro h
      rw [List.filter_eq_self.2]
      intro m hm
      obtain ⟨hm, herror⟩ := List.mem_filter.1 hm
      simpa using h m hm (by simpa using herror)

def cutError : Message where
  document := .dict [
    (Json.spell "reason".toList (by decide), .text (Json.spell "compiler-message".toList (by decide))),
    (Json.spell "message".toList (by decide), .dict [
      (Json.spell "level".toList (by decide), .text (Json.spell "error".toList (by decide))),
      (Json.spell "rendered".toList (by decide),
        .text (Json.spell "error: a\u2028b".toList (by decide)))])]
  line := "\x7b\"reason\":\"compiler-message\",\"message\":\x7b\"level\":\"error\"," ++
    "\"rendered\":\"error: a\u2028b\"\x7d\x7d"
  written := Json.spaced_flatMap _
  plain := fun c hc => of_decide_eq_true
    ((@List.all_eq_true Char (fun c => 0x20 ≤ c.toNat) _).1 (by decide +kernel) c hc)

/-- A compiler that prints this error and nothing else, where there is no formatter and where a reading
puts up with everything. -/
def cutErrorTools : Toolchain := ⟨.printed (printed [cutError.line]), none, "t", .none⟩

theorem cutError_unseen :
    IsError cutError.value ∧
      ((check cutErrorTools "fn f() \x7b\x7d").onDesk ⟨⟨"/w", [(["t"], .folder)]⟩, "", "", [], 0⟩).1 =
        .ok "SUCCESS\nfn f() \x7b\x7d" := by
  refine ⟨by decide +kernel, ?_⟩
  have hpackage : ((writePackage cutErrorTools "fn f() \x7b\x7d").onDesk
      ⟨⟨"/w", [(["t"], .folder)]⟩, "", "", [], 0⟩).1 = .ok () := eq_ok_of_isOk (by decide +kernel)
  have hunseen : ([cutError].filter fun m => IsError m.value ∧ m.Legible .none) = [] := by
    decide +kernel
  have hcheck := (check_legibleErrors [cutError] hpackage (by rintro _ ⟨⟩) rfl).1
  change _ = verdict _ (([cutError].filter fun m => IsError m.value ∧ m.Legible .none).map _) at hcheck
  rw [hunseen] at hcheck
  have htext : "SUCCESS\n" ++ Text.plainNewlines "fn f() \x7b\x7d" = "SUCCESS\nfn f() \x7b\x7d" := by
    decide +kernel
  exact hcheck.trans (congrArg Except.ok htext)

end

end Workbench.Crate
