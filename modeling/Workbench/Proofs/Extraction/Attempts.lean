import Workbench.Proofs.Extraction.Conversion

/-!
# Attempts

A chunk is tried until a reply holds a text. Whatever else comes back, be it no answer, an answer that
the server turns down, a body that cannot be read, or one that leads to no text, takes up one attempt
and is forgotten when another one follows. There is one pause between two attempts, and none behind the
last one.
-/

namespace Workbench.Extraction

open Session

variable {reply : Reply} {v w body : Value} {f : Failure} {r : Except Failure Value} {text : String}

/-! ## The way to a text -/

inductive Step where
  | field (key : String)
  | first

inductive Goes : Step → Value → Except Failure Value → Prop
  | field {key : String} {fields : Fields} {w : Value} :
      Fields.get? key fields = some w → Goes (.field key) (.dict fields) (.ok w)
  | noField {key : String} {fields : Fields} :
      Fields.get? key fields = none → Goes (.field key) (.dict fields) (.error .noField)
  | fieldless {key : String} {v : Value} :
      (∀ fields, v ≠ .dict fields) → Goes (.field key) v (.error .badShape)
  | item {w : Value} {rest : List Value} : Goes .first (.list (w :: rest)) (.ok w)
  | noItem : Goes .first (.list []) (.error .noItem)
  | letter {s : String} {c : Char} {cs : List Char} :
      s.toList = c :: cs → Goes .first (.str s) (.ok (.str (String.ofList [c])))
  | noLetter : Goes .first (.str "") (.error .noItem)
  | keyed {fields : Fields} : Goes .first (.dict fields) (.error .noField)
  | single {v : Value} : (∀ items, v ≠ .list items) → (∀ s, v ≠ .str s) →
      (∀ fields, v ≠ .dict fields) → Goes .first v (.error .badShape)

inductive Leads : List Step → Value → Except Failure Value → Prop
  | here {v : Value} : Leads [] v (.ok v)
  | on {step : Step} {steps : List Step} {v w : Value} {r : Except Failure Value} :
      Goes step v (.ok w) → Leads steps w r → Leads (step :: steps) v r
  | stop {step : Step} {steps : List Step} {v : Value} {f : Failure} :
      Goes step v (.error f) → Leads (step :: steps) v (.error f)

def route : List Step := [.field "choices", .first, .field "message", .field "content"]

inductive Holds : Reply → String → Prop
  | mk {status : Nat} {refusal : String} {body : Value} {text : String} :
      ¬(400 ≤ status ∧ status < 600) → Leads route body (.ok (.str text)) →
      Holds (.answer status refusal (.ok body)) text

inductive Spoils : Reply → Failure → Prop
  | failed {fault : ReplyFault} : Spoils (.failed fault) (.reply fault)
  | refused {status : Nat} {refusal : String} {body : Except ReplyFault Value} :
      400 ≤ status ∧ status < 600 → Spoils (.answer status refusal body) (.reply ⟨true, refusal⟩)
  | unreadable {status : Nat} {refusal : String} {fault : ReplyFault} :
      ¬(400 ≤ status ∧ status < 600) → Spoils (.answer status refusal (.error fault)) (.reply fault)
  | astray {status : Nat} {refusal : String} {body : Value} {f : Failure} :
      ¬(400 ≤ status ∧ status < 600) → Leads route body (.error f) →
      Spoils (.answer status refusal (.ok body)) f
  | notText {status : Nat} {refusal : String} {body v : Value} :
      ¬(400 ≤ status ∧ status < 600) → Leads route body (.ok v) → (∀ text, v ≠ .str text) →
      Spoils (.answer status refusal (.ok body)) .badShape

/-! ## What an attempt comes to -/

def Step.take : Step → Value → Except Failure Value
  | .field key => fieldOf key
  | .first => firstOf

theorem goes_iff {step : Step} : Goes step v r ↔ step.take v = r := by
  constructor
  · intro h
    cases h with
    | field h | noField h => simp only [Step.take, fieldOf, h]
    | @fieldless _ v h =>
      cases v with
      | dict fields => exact absurd rfl (h fields)
      | null | bool _ | int _ | float _ | str _ | list _ => rfl
    | item | noItem | keyed => rfl
    | letter h => simp only [Step.take, firstOf, h]
    | noLetter => rfl
    | @single v hlist hstr hdict =>
      cases v with
      | list items => exact absurd rfl (hlist items)
      | str s => exact absurd rfl (hstr s)
      | dict fields => exact absurd rfl (hdict fields)
      | null | bool _ | int _ | float _ => rfl
  · rintro rfl
    cases step with
    | field key =>
      cases v with
      | dict fields =>
        cases h : Fields.get? key fields with
        | some w => simpa only [Step.take, fieldOf, h] using Goes.field h
        | none => simpa only [Step.take, fieldOf, h] using Goes.noField h
      | null | bool _ | int _ | float _ | str _ | list _ => exact .fieldless (by simp)
    | first =>
      cases v with
      | list items =>
        cases items with
        | nil => exact .noItem
        | cons w rest => exact .item
      | str s =>
        cases h : s.toList with
        | nil =>
          obtain rfl : s = "" := String.toList_eq_nil_iff.1 h
          exact .noLetter
        | cons c cs => simpa only [Step.take, firstOf, h] using Goes.letter h
      | dict fields => exact .keyed
      | null | bool _ | int _ | float _ => exact .single (by simp) (by simp) (by simp)

theorem leads_iff {steps : List Step} : Leads steps v r ↔ steps.foldlM (fun v s => s.take v) v = r := by
  induction steps generalizing v with
  | nil =>
    constructor
    · rintro ⟨⟩
      rfl
    · rintro rfl
      exact .here
  | cons step steps ih =>
    rw [List.foldlM_cons]
    constructor
    · intro h
      cases h with
      | on hgo hlead => rw [goes_iff.1 hgo]; exact ih.1 hlead
      | stop hgo => rw [goes_iff.1 hgo]; rfl
    · intro h
      cases htake : step.take v with
      | ok w =>
        rw [htake] at h
        exact .on (goes_iff.2 htake) (ih.2 h)
      | error f =>
        rw [htake] at h
        subst h
        exact .stop (goes_iff.2 htake)

def textAt : Value → Except Failure String
  | .str s => .ok (String.ofList (withoutFences s.toList))
  | _ => .error .badShape

theorem contentOf_of_taken {status : Nat} (h : ¬(400 ≤ status ∧ status < 600)) (refusal : String)
    (body : Value) : contentOf (.answer status refusal (.ok body)) =
      route.foldlM (fun v s => s.take v) body >>= textAt := by
  unfold contentOf
  rw [Reply.body_of_taken h]
  simp only [route, List.foldlM_cons, List.foldlM_nil, Step.take, bind_assoc, bind_pure]
  rfl

theorem Holds.contentOf (h : Holds reply text) :
    contentOf reply = .ok (String.ofList (withoutFences text.toList)) := by
  obtain ⟨hstatus, hlead⟩ := h
  rw [contentOf_of_taken hstatus, leads_iff.1 hlead]
  rfl

theorem Spoils.contentOf (h : Spoils reply f) : contentOf reply = .error f := by
  cases h with
  | failed => rfl
  | refused hstatus =>
    unfold Extraction.contentOf
    rw [Reply.body_of_refused hstatus]
    rfl
  | unreadable hstatus =>
    unfold Extraction.contentOf
    rw [Reply.body_of_taken hstatus]
    rfl
  | astray hstatus hlead =>
    rw [contentOf_of_taken hstatus, leads_iff.1 hlead]
    rfl
  | @notText _ _ _ v hstatus hlead hno =>
    rw [contentOf_of_taken hstatus, leads_iff.1 hlead]
    cases v with
    | str text => exact absurd rfl (hno text)
    | null | bool _ | int _ | float _ | list _ | dict _ => rfl

theorem holds_or_spoils (reply : Reply) : (∃ text, Holds reply text) ∨ ∃ f, Spoils reply f := by
  cases reply with
  | failed fault => exact .inr ⟨_, .failed⟩
  | answer status refusal body =>
    by_cases hstatus : 400 ≤ status ∧ status < 600
    · exact .inr ⟨_, .refused hstatus⟩
    · cases body with
      | error fault => exact .inr ⟨_, .unreadable hstatus⟩
      | ok body =>
        cases hroute : route.foldlM (fun v s => s.take v) body with
        | error f => exact .inr ⟨f, .astray hstatus (leads_iff.2 hroute)⟩
        | ok v =>
          cases v with
          | str text => exact .inl ⟨text, .mk hstatus (leads_iff.2 hroute)⟩
          | null | bool _ | int _ | float _ | list _ | dict _ =>
            exact .inr ⟨_, .notText hstatus (leads_iff.2 hroute) (by simp)⟩

theorem Holds.not_spoils (h : Holds reply text) : ¬Spoils reply f := by
  intro hspoils
  cases h.contentOf.symm.trans hspoils.contentOf

theorem Holds.eq {text' : String} (h : Holds reply text) (h' : Holds reply text') : text = text' := by
  obtain ⟨-, hlead⟩ := h
  obtain ⟨-, hlead'⟩ := h'
  cases (leads_iff.1 hlead).symm.trans (leads_iff.1 hlead')
  rfl

theorem exists_spoils (h : ∀ text, ¬Holds reply text) : ∃ f, Spoils reply f := by
  obtain ⟨text, hholds⟩ | hspoils := holds_or_spoils reply
  · exact absurd hholds (h text)
  · exact hspoils

/-! ## Rows of attempts -/

variable {content : Nat → Except Failure String} {attempt left k : Nat}

/-- A failed attempt is followed by a pause and the rest of the row. -/
theorem attemptFrom_of_error (h : content attempt = .error f) (left : Nat) :
    attemptFrom content attempt (left + 2) =
      ⟨(attemptFrom content (attempt + 1) (left + 1)).result,
        (attemptFrom content (attempt + 1) (left + 1)).requests + 1,
        (attemptFrom content (attempt + 1) (left + 1)).pauses + 1⟩ := by
  rw [attemptFrom, h]
  rfl

theorem attemptFrom_of_good (hfails : ∀ j < k, ∃ f, content (attempt + j) = .error f)
    (hgood : content (attempt + k) = .ok text) (left : Nat) :
    attemptFrom content attempt (k + left + 1) = ⟨.ok (some text), k + 1, k⟩ := by
  induction k generalizing attempt with
  | zero => rw [attemptFrom, show content attempt = .ok text from hgood]
  | succ k ih =>
    have hindex (j : Nat) : attempt + 1 + j = attempt + (j + 1) := by omega
    obtain ⟨f, hf⟩ := hfails 0 (Nat.zero_lt_succ k)
    have hrest : attemptFrom content (attempt + 1) (k + left + 1) = ⟨.ok (some text), k + 1, k⟩ :=
      ih (fun j hj => hindex j ▸ hfails (j + 1) (Nat.succ_lt_succ hj)) (hindex k ▸ hgood)
    rw [show k + 1 + left + 1 = k + left + 2 by omega, @attemptFrom_of_error f content attempt hf, hrest]

theorem attemptFrom_of_fails (hfails : ∀ j < left, ∃ f, content (attempt + j) = .error f)
    (hlast : content (attempt + left) = .error f) :
    attemptFrom content attempt (left + 1) = ⟨.error f, left + 1, left⟩ := by
  induction left generalizing attempt with
  | zero =>
    rw [attemptFrom, show content attempt = .error f from hlast]
    rfl
  | succ left ih =>
    have hindex (j : Nat) : attempt + 1 + j = attempt + (j + 1) := by omega
    obtain ⟨g, hg⟩ := hfails 0 (Nat.zero_lt_succ left)
    have hrest : attemptFrom content (attempt + 1) (left + 1) = ⟨.error f, left + 1, left⟩ :=
      ih (fun j hj => hindex j ▸ hfails (j + 1) (Nat.succ_lt_succ hj)) (hindex left ▸ hlast)
    rw [@attemptFrom_of_error g content attempt hg, hrest]

/-- The first reply that holds a text ends the row of attempts: its text is the result, cleaned of
fences, after one request for it and one for each reply before it, with a pause in between. If none of
the replies that may be asked for holds a text, all of them are asked for, and what is wrong with the
last one is what the row fails with. A reply holds one text, or else one thing is wrong with it; and
the requests and pauses are those that are noted. -/
theorem attemptChunk_accounted (replies : Replies) {n : Nat} (hn : 1 ≤ n) :
    (∀ k raw, k < n → Holds (replies k) raw → (∀ j < k, ∀ raw, ¬Holds (replies j) raw) →
      attemptChunk replies n = ⟨.ok (some (String.ofList (withoutFences raw.toList))), k + 1, k⟩) ∧
    ((∀ j < n, ∀ raw, ¬Holds (replies j) raw) →
      ∃ f, Spoils (replies (n - 1)) f ∧ attemptChunk replies n = ⟨.error f, n, n - 1⟩) ∧
    (∀ reply, (∃! raw, Holds reply raw) ∧ (∀ f, ¬Spoils reply f) ∨
      (∀ raw, ¬Holds reply raw) ∧ ∃! f, Spoils reply f) ∧
    ∀ (ε : Type) (config : Config) (chunk : String) (d : Desk),
      (noteAttempts config chunk (attemptChunk replies n) : Session ε Unit).onDesk d =
        (.ok (), { d with
          posts := d.posts ++
            List.replicate (attemptChunk replies n).requests (config.chunkPost chunk)
          pauses := d.pauses + (attemptChunk replies n).pauses }) := by
  have hfails {k : Nat} (h : ∀ j < k, ∀ raw, ¬Holds (replies j) raw) :
      ∀ j < k, ∃ f, contentOf (replies (0 + j)) = .error f := by
    intro j hj
    obtain ⟨f, hf⟩ := exists_spoils (h j hj)
    exact ⟨f, (Nat.zero_add j).symm ▸ hf.contentOf⟩
  unfold attemptChunk
  refine ⟨fun k raw hk hgood hbad => ?_, fun hbad => ?_, fun reply => ?_, fun ε config chunk d => onDesk_note ..⟩
  · obtain ⟨left, rfl⟩ := Nat.exists_eq_add_of_lt hk
    exact attemptFrom_of_good (hfails hbad) ((Nat.zero_add k).symm ▸ hgood.contentOf) left
  · obtain ⟨left, rfl⟩ := Nat.exists_eq_add_of_le' hn
    obtain ⟨f, hf⟩ := exists_spoils (hbad left (Nat.lt_succ_self left))
    exact ⟨f, hf, attemptFrom_of_fails (hfails fun j hj => hbad j (Nat.lt_succ_of_lt hj))
      ((Nat.zero_add left).symm ▸ hf.contentOf)⟩
  · by_cases hgood : ∃ raw, Holds reply raw
    · obtain ⟨raw, hraw⟩ := hgood
      exact .inl ⟨⟨raw, hraw, fun raw' hraw' => hraw'.eq hraw⟩, fun f => hraw.not_spoils⟩
    · have hbad : ∀ raw, ¬Holds reply raw := fun raw hraw => hgood ⟨raw, hraw⟩
      obtain ⟨f, hf⟩ := exists_spoils hbad
      refine .inr ⟨hbad, f, hf, fun f' hf' => ?_⟩
      exact Except.error.inj (hf'.contentOf.symm.trans hf.contentOf)

/-- Replies that turn down the first attempt, then hold a number for a text, and then a text in a
fence. -/
def slowReplies : Replies := fun attempt =>
  if attempt = 0 then .answer 503 "busy" (.error ⟨true, "no body"⟩)
  else .answer 200 "" (.ok (.dict [("choices", .list [.dict [("message", .dict [("content",
    if attempt = 1 then .int 1 else .str "```latex\nx = 1\n```")])]])]))

/-- The third reply is good enough for three attempts, and comes too late for two. -/
theorem slowReplies_accounted :
    attemptChunk slowReplies 3 = ⟨.ok (some "x = 1"), 3, 2⟩ ∧
      attemptChunk slowReplies 2 = ⟨.error .badShape, 2, 1⟩ := by
  have hbusy : Spoils (slowReplies 0) (.reply ⟨true, "busy"⟩) := .refused (by decide)
  have hnumber : Spoils (slowReplies 1) .badShape := .notText (by decide) (leads_iff.2 rfl) (by simp)
  have hgood : Holds (slowReplies 2) "```latex\nx = 1\n```" := .mk (by decide) (leads_iff.2 rfl)
  have hbad : ∀ j < 2, ∀ raw, ¬Holds (slowReplies j) raw := by
    intro j hj raw hraw
    obtain rfl | rfl : j = 0 ∨ j = 1 := by omega
    · exact hraw.not_spoils hbusy
    · exact hraw.not_spoils hnumber
  have htext : String.ofList (withoutFences "```latex\nx = 1\n```".toList) = "x = 1" := by decide
  have hthree := (attemptChunk_accounted slowReplies (n := 3) (by decide)).1 2 _ (by decide) hgood hbad
  obtain ⟨f, hf, htwo⟩ := (attemptChunk_accounted slowReplies (n := 2) (by decide)).2.1 hbad
  obtain rfl : .badShape = f := Except.error.inj (hnumber.contentOf.symm.trans hf.contentOf)
  rw [htext] at hthree
  exact ⟨hthree, htwo⟩

end Workbench.Extraction
