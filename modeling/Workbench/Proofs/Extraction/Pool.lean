import Mathlib.Algebra.GroupWithZero.Nat
import Mathlib.Data.List.Forall2
import Mathlib.Data.List.Sigma
import Workbench.Extraction.Request
import Workbench.Proofs.World.Session

/-!
# Workers that finish in any order

Chunks are tried by workers that do not wait for each other. A step of the pool is one attempt of one
worker; when a worker is done, its text goes behind those that are there already. However the steps
fall, the texts are put into the places of their chunks, and the whole is the same.
-/

namespace Workbench

theorem Text.occursIn_iff_infix {part s : List Char} : occursIn part s = true ↔ part <:+: s := by
  induction s with
  | nil => simp [occursIn]
  | cons c s ih => simp [occursIn, ih, List.infix_cons_iff, List.isPrefixOf_iff_prefix]

namespace Extraction

open Session

variable {server : Server} {replies : Replies} {chunks : List String} {chunk text : String}

/-! ## What comes of a chunk -/

def HasKeyword (chunk : String) : Prop :=
  ∃ k ∈ keywords, k.toList <:+: chunk.toList.map Char.toLower

theorem isMathematical_iff : isMathematical chunk = true ↔ HasKeyword chunk := by
  simp [isMathematical, HasKeyword, Text.occursIn_iff_infix]

def Fails (replies : Replies) (attempt : Nat) : Prop := ∃ f, contentOf (replies attempt) = .error f

/-- The text that is to stand in the place of a chunk. -/
inductive Extracts (replies : Replies) (chunk : String) : String → Prop
  | unsent : ¬HasKeyword chunk → Extracts replies chunk ""
  | good {text : String} (k : Nat) : HasKeyword chunk → k < attemptLimit →
      (∀ j < k, Fails replies j) → contentOf (replies k) = .ok text → Extracts replies chunk text
  | failed : HasKeyword chunk → (∀ j < attemptLimit, Fails replies j) → Extracts replies chunk ""

theorem attemptFrom_text_ok {content : Nat → Except Failure String} {attempt : Nat} (left : Nat)
    (h : content attempt = .ok text) : (attemptFrom content attempt (left + 1)).text = text := by
  simp [attemptFrom, h, Attempts.text]

theorem attemptFrom_text_error {content : Nat → Except Failure String} {attempt : Nat} {f : Failure}
    (left : Nat) (h : content attempt = .error f) :
    (attemptFrom content attempt (left + 1)).text = (attemptFrom content (attempt + 1) left).text := by
  cases left with
  | zero => simp [attemptFrom, h, Attempts.text]
  | succ left => simp [attemptFrom, h, Attempts.text]

/-- A row of attempts brings the text of the first good one, or nothing if there is none. -/
theorem attemptFrom_text_cases (content : Nat → Except Failure String) (attempt left : Nat) :
    (∃ k < left, (∀ j < k, ∃ f, content (attempt + j) = .error f) ∧
      content (attempt + k) = .ok (attemptFrom content attempt left).text) ∨
    (∀ j < left, ∃ f, content (attempt + j) = .error f) ∧
      (attemptFrom content attempt left).text = "" := by
  induction left generalizing attempt with
  | zero => exact .inr ⟨by simp, rfl⟩
  | succ left ih =>
    cases hcontent : content attempt with
    | ok s => exact .inl ⟨0, by simp, by simp, by simp [hcontent, attemptFrom_text_ok left hcontent]⟩
    | error f =>
      have hshift (n : Nat) (h : ∀ j < n, ∃ f, content (attempt + 1 + j) = .error f) :
          ∀ j < n + 1, ∃ f, content (attempt + j) = .error f := by
        intro j hj
        cases j with
        | zero => exact ⟨f, hcontent⟩
        | succ j =>
          obtain ⟨g, hg⟩ := h j (by omega)
          exact ⟨g, by rw [← hg]; congr 1; omega⟩
      rw [attemptFrom_text_error left hcontent]
      cases ih (attempt + 1) with
      | inl h =>
        obtain ⟨k, hk, hfails, hgood⟩ := h
        refine .inl ⟨k + 1, by omega, hshift k hfails, ?_⟩
        rw [← hgood]
        congr 1
        omega
      | inr h => exact .inr ⟨hshift left h.1, h.2⟩

def textOf (replies : Replies) (chunk : String) : String :=
  if isMathematical chunk then (attemptChunk replies attemptLimit).text else ""

theorem extracts_textOf (replies : Replies) (chunk : String) :
    Extracts replies chunk (textOf replies chunk) := by
  unfold textOf
  by_cases hkey : isMathematical chunk = true
  · have hcases := attemptFrom_text_cases (fun k => contentOf (replies k)) 0 attemptLimit
    simp only [Nat.zero_add] at hcases
    rw [if_pos hkey]
    rw [isMathematical_iff] at hkey
    cases hcases with
    | inl h =>
      obtain ⟨k, hk, hfails, hgood⟩ := h
      exact .good k hkey hk hfails hgood
    | inr h =>
      unfold attemptChunk
      rw [h.2]
      exact .failed hkey h.1
  · rw [if_neg hkey]
    rw [isMathematical_iff] at hkey
    exact .unsent hkey

/-! ## Putting texts into their places -/

theorem getElem?_foldl_set_of_ne {done : List (Nat × String)} {i : Nat} (h : ∀ p ∈ done, p.1 ≠ i)
    (places : List String) :
    (done.foldl (fun ps p => ps.set p.1 p.2) places)[i]? = places[i]? := by
  induction done generalizing places with
  | nil => rfl
  | cons p done ih =>
    rw [List.foldl_cons, ih fun q hq => h q (List.mem_cons_of_mem p hq),
      List.getElem?_set_ne (h p List.mem_cons_self)]

theorem getElem?_foldl_set_of_mem {done : List (Nat × String)} (hdone : (done.map Prod.fst).Nodup)
    {places : List String} {i : Nat} (hi : i < places.length) (h : (i, text) ∈ done) :
    (done.foldl (fun ps p => ps.set p.1 p.2) places)[i]? = some text := by
  induction done generalizing places with
  | nil => cases h
  | cons p done ih =>
    rw [List.map_cons, List.nodup_cons] at hdone
    rw [List.foldl_cons]
    cases h with
    | head =>
      have hothers : ∀ q ∈ done, q.1 ≠ i := fun q hq he =>
        hdone.1 (List.mem_map.mpr ⟨q, hq, he⟩)
      rw [getElem?_foldl_set_of_ne hothers, List.getElem?_set_self hi]
    | tail _ h => exact ih hdone.2 (by simpa using hi) h

theorem mem_sentChunks {i : Nat} :
    (i, chunk) ∈ sentChunks chunks ↔ chunks[i]? = some chunk ∧ isMathematical chunk = true := by
  simp [sentChunks, List.mem_zipIdx_iff_getElem?]

theorem nodup_places_sentChunks (chunks : List String) :
    ((sentChunks chunks).map Prod.fst).Nodup := by
  have hall : ((chunks.zipIdx.map fun p => (p.2, p.1)).map Prod.fst).Nodup := by
    rw [List.map_map]
    exact List.nodup_zipIdx_map_snd chunks
  exact (List.filter_sublist.map Prod.fst).nodup hall

def broughtBy (server : Server) (chunks : List String) : List (Nat × String) :=
  (sentChunks chunks).map fun (i, c) => (i, textOf (server i c) c)

theorem mem_broughtBy {i : Nat} :
    (i, text) ∈ broughtBy server chunks ↔
      ∃ chunk, chunks[i]? = some chunk ∧ isMathematical chunk = true ∧
        textOf (server i chunk) chunk = text := by
  unfold broughtBy
  rw [List.mem_map]
  constructor
  · intro h
    obtain ⟨⟨j, chunk⟩, hmem, heq⟩ := h
    cases heq
    obtain ⟨hchunk, hkey⟩ := mem_sentChunks.mp hmem
    exact ⟨chunk, hchunk, hkey, rfl⟩
  · intro h
    obtain ⟨chunk, hchunk, hkey, rfl⟩ := h
    exact ⟨(i, chunk), mem_sentChunks.mpr ⟨hchunk, hkey⟩, rfl⟩

def textsOf (server : Server) (chunks : List String) : List String :=
  chunks.zipIdx.map fun (c, i) => textOf (server i c) c

theorem getElem?_textsOf (server : Server) (chunks : List String) (i : Nat) :
    (textsOf server chunks)[i]? = chunks[i]?.map fun c => textOf (server i c) c := by
  simp [textsOf, Function.comp_def]

theorem extracts_textsOf (server : Server) (chunks : List String) :
    List.Forall₂ (fun p => Extracts (server p.2 p.1) p.1) chunks.zipIdx (textsOf server chunks) := by
  unfold textsOf
  rw [List.forall₂_map_right_iff, List.forall₂_same]
  exact fun p _ => extracts_textOf (server p.2 p.1) p.1

/-- The places fill up in the same way whichever order the texts come in. -/
theorem foldl_set_of_perm {done : List (Nat × String)} (hdone : done.Perm (broughtBy server chunks)) :
    done.foldl (fun ps p => ps.set p.1 p.2) (List.replicate chunks.length "") =
      textsOf server chunks := by
  have hnodup : (done.map Prod.fst).Nodup := by
    rw [(hdone.map Prod.fst).nodup_iff, broughtBy, List.map_map]
    exact nodup_places_sentChunks chunks
  apply List.ext_getElem?
  intro i
  rw [getElem?_textsOf]
  by_cases hsent : ∃ text, (i, text) ∈ done
  · obtain ⟨text, hmem⟩ := hsent
    obtain ⟨chunk, hchunk, -, rfl⟩ := mem_broughtBy.mp (hdone.mem_iff.mp hmem)
    have hlt : i < chunks.length := (List.getElem?_eq_some_iff.mp hchunk).1
    rw [getElem?_foldl_set_of_mem hnodup (by simpa using hlt) hmem, hchunk]
    rfl
  · have hne : ∀ p ∈ done, p.1 ≠ i := fun p hp he => hsent ⟨p.2, he ▸ hp⟩
    rw [getElem?_foldl_set_of_ne hne, List.getElem?_replicate]
    cases hchunk : chunks[i]? with
    | none => simp [List.getElem?_eq_none_iff.mp hchunk]
    | some chunk =>
      have hlt : i < chunks.length := (List.getElem?_eq_some_iff.mp hchunk).1
      have hkey : isMathematical chunk = false := by
        rw [Bool.eq_false_iff]
        exact fun hkey => hsent ⟨_, hdone.mem_iff.mpr (mem_broughtBy.mpr ⟨chunk, hchunk, hkey, rfl⟩)⟩
      simp [hlt, textOf, hkey]

/-- The texts of all chunks, in their order, with a blank line between those that are not empty. -/
def joined (texts : List String) : String := String.intercalate "\n\n" (texts.filter (· != ""))

theorem assemble_of_perm {done : List (Nat × String)} (hdone : done.Perm (broughtBy server chunks)) :
    assemble chunks.length done = joined (textsOf server chunks) := by
  unfold assemble joined
  rw [← foldl_set_of_perm hdone]

/-! ## The pool -/

/-- A worker at a chunk, and how many of its attempts have failed. -/
structure Worker where
  place : Nat
  chunk : String
  tried : Nat

/-- The workers that are not done, and what the others brought, in the order in which they were
done. -/
structure Pool where
  working : List Worker
  finished : List (Nat × String)

namespace Pool

def start (chunks : List String) : Pool :=
  ⟨(sentChunks chunks).map fun (i, c) => ⟨i, c, 0⟩, []⟩

/-- Some worker makes its next attempt. After a good one, or the last, it is done. -/
inductive Step (server : Server) : Pool → Pool → Prop
  | good {before after : List Worker} {w : Worker} {finished : List (Nat × String)} {text : String} :
      contentOf (server w.place w.chunk w.tried) = .ok text →
      Step server ⟨before ++ w :: after, finished⟩ ⟨before ++ after, finished ++ [(w.place, text)]⟩
  | retry {before after : List Worker} {w : Worker} {finished : List (Nat × String)} :
      Fails (server w.place w.chunk) w.tried → w.tried + 1 < attemptLimit →
      Step server ⟨before ++ w :: after, finished⟩
        ⟨before ++ { w with tried := w.tried + 1 } :: after, finished⟩
  | giveUp {before after : List Worker} {w : Worker} {finished : List (Nat × String)} :
      Fails (server w.place w.chunk) w.tried → ¬w.tried + 1 < attemptLimit →
      Step server ⟨before ++ w :: after, finished⟩ ⟨before ++ after, finished ++ [(w.place, "")]⟩

inductive Run (server : Server) (chunks : List String) : Nat → Pool → Prop
  | start : Run server chunks 0 (start chunks)
  | step {n : Nat} {p q : Pool} : Run server chunks n p → Step server p q →
      Run server chunks (n + 1) q

def prospect (server : Server) (w : Worker) : Nat × String :=
  (w.place, (attemptFrom (fun k => contentOf (server w.place w.chunk k)) w.tried
    (attemptLimit - w.tried)).text)

def patience (p : Pool) : Nat := (p.working.map fun w => attemptLimit - w.tried).sum

def Able (p : Pool) : Prop := ∀ w ∈ p.working, w.tried < attemptLimit

variable {p q : Pool} {n : Nat} {w : Worker}

theorem prospect_of_ok (hw : w.tried < attemptLimit)
    (h : contentOf (server w.place w.chunk w.tried) = .ok text) : prospect server w = (w.place, text) := by
  unfold prospect
  obtain ⟨left, hleft⟩ : ∃ left, attemptLimit - w.tried = left + 1 :=
    ⟨attemptLimit - w.tried - 1, by omega⟩
  rw [hleft, attemptFrom_text_ok left h]

theorem prospect_of_fails (hw : w.tried < attemptLimit) (h : Fails (server w.place w.chunk) w.tried) :
    prospect server w = prospect server { w with tried := w.tried + 1 } := by
  obtain ⟨f, hf⟩ := h
  unfold prospect
  have hleft : attemptLimit - w.tried = attemptLimit - (w.tried + 1) + 1 := by omega
  rw [hleft, attemptFrom_text_error _ hf]

theorem prospect_of_spent (hw : ¬w.tried < attemptLimit) : prospect server w = (w.place, "") := by
  unfold prospect
  rw [Nat.sub_eq_zero_of_le (Nat.le_of_not_lt hw)]
  rfl

theorem perm_of_done {finished : List (Nat × String)} {before after : List Worker}
    {result : Nat × String} (h : prospect server w = result) :
    (finished ++ [result] ++ (before ++ after).map (prospect server)).Perm
      (finished ++ (before ++ w :: after).map (prospect server)) := by
  rw [List.append_assoc]
  apply List.Perm.append_left
  rw [List.map_append, List.map_append, List.map_cons, h]
  rw [List.singleton_append]
  exact List.perm_middle.symm

/-- A step changes nothing about what will have been brought in the end. -/
theorem Step.perm (h : Step server p q) (hable : p.Able) :
    (q.finished ++ q.working.map (prospect server)).Perm
      (p.finished ++ p.working.map (prospect server)) := by
  cases h with
  | good hgood => exact perm_of_done (prospect_of_ok (hable _ (by simp)) hgood)
  | retry hfails _ =>
    have hsame := prospect_of_fails (hable _ (by simp)) hfails
    simp [hsame]
  | giveUp hfails hlast =>
    apply perm_of_done
    rw [prospect_of_fails (hable _ (by simp)) hfails, prospect_of_spent hlast]

theorem Step.able (h : Step server p q) (hable : p.Able) : q.Able := by
  cases h with
  | good _ => exact fun w hw => hable w (by simp at hw ⊢; tauto)
  | retry _ hmore =>
    intro v hv
    simp only [List.mem_append, List.mem_cons] at hv
    rcases hv with hv | rfl | hv
    · exact hable v (by simp [hv])
    · exact hmore
    · exact hable v (by simp [hv])
  | giveUp _ _ => exact fun w hw => hable w (by simp at hw ⊢; tauto)

theorem Step.patience (h : Step server p q) (hable : p.Able) : q.patience < p.patience := by
  unfold Pool.patience
  cases h with
  | @good before after w _ _ _ =>
    have hw := hable w (by simp)
    simp only [List.map_append, List.map_cons, List.sum_append, List.sum_cons]
    omega
  | @retry before after w _ _ _ =>
    have hw := hable w (by simp)
    simp only [List.map_append, List.map_cons, List.sum_append, List.sum_cons]
    omega
  | @giveUp before after w _ _ _ =>
    have hw := hable w (by simp)
    simp only [List.map_append, List.map_cons, List.sum_append, List.sum_cons]
    omega

theorem exists_step (h : p.working ≠ []) : ∃ q, Step server p q := by
  obtain ⟨working, finished⟩ := p
  cases working with
  | nil => exact absurd rfl h
  | cons w rest =>
    cases hcontent : contentOf (server w.place w.chunk w.tried) with
    | ok text => exact ⟨_, @Step.good server [] rest w finished text hcontent⟩
    | error f =>
      by_cases hmore : w.tried + 1 < attemptLimit
      · exact ⟨_, @Step.retry server [] rest w finished ⟨f, hcontent⟩ hmore⟩
      · exact ⟨_, @Step.giveUp server [] rest w finished ⟨f, hcontent⟩ hmore⟩

/-! ## Runs of the pool -/

structure Reached (server : Server) (chunks : List String) (n : Nat) (p : Pool) : Prop where
  able : p.Able
  perm : (p.finished ++ p.working.map (prospect server)).Perm (broughtBy server chunks)
  steps : n + p.patience ≤ attemptLimit * chunks.length

theorem reached_start (server : Server) (chunks : List String) :
    Reached server chunks 0 (start chunks) := by
  constructor
  · intro w hw
    obtain ⟨p, -, rfl⟩ := List.mem_map.mp hw
    exact Nat.zero_lt_succ 2
  · have hsame : (start chunks).working.map (prospect server) = broughtBy server chunks := by
      unfold start broughtBy
      rw [List.map_map]
      apply List.map_congr_left
      intro p hp
      have hkey := (mem_sentChunks.mp hp).2
      simp [prospect, textOf, hkey, attemptChunk]
    rw [hsame]
    exact .refl _
  · have hlength : (sentChunks chunks).length ≤ chunks.length := by
      unfold sentChunks
      exact Nat.le_trans (List.length_filter_le _ _) (by simp)
    have hpatience : (start chunks).patience = (sentChunks chunks).length * attemptLimit := by
      unfold start patience
      rw [List.map_map, ← List.sum_replicate_nat, ← List.map_const']
      rfl
    rw [hpatience, Nat.zero_add, Nat.mul_comm]
    exact Nat.mul_le_mul_left _ hlength

theorem Run.reached (h : Run server chunks n p) : Reached server chunks n p := by
  induction h with
  | start => exact reached_start server chunks
  | step _ hstep ih =>
    have hless := hstep.patience ih.able
    have hsteps := ih.steps
    exact ⟨hstep.able ih.able, (hstep.perm ih.able).trans ih.perm, by omega⟩

end Pool

/-! ## The tool -/

/-- Noting what was sent cannot break off, and changes nothing else. -/
theorem onDesk_forIn_noteAttempts {ε : Type} (config : Config) (server : Server)
    (sent : List (Nat × String)) (d : Desk) :
    ∃ posts pauses, (forIn sent PUnit.unit fun (i, chunk) _ => do
      noteAttempts config chunk (attemptChunk (server i chunk) attemptLimit)
      pure (.yield PUnit.unit) : Session ε PUnit).onDesk d =
        (.ok (), { d with posts := posts, pauses := pauses }) := by
  induction sent generalizing d with
  | nil => exact ⟨d.posts, d.pauses, rfl⟩
  | cons p sent ih =>
    rw [List.forIn_cons]
    simp only [bind_assoc, pure_bind, noteAttempts]
    rw [onDesk_bind_of_ok (onDesk_note _ _)]
    exact ih _

theorem map_finishedChunks (server : Server) (chunks : List String) :
    (finishedChunks server chunks).map (fun (i, a) => (i, a.text)) = broughtBy server chunks := by
  unfold finishedChunks broughtBy
  rw [List.map_map]
  apply List.map_congr_left
  intro p hp
  have hkey := (mem_sentChunks.mp hp).2
  simp [textOf, hkey]

theorem onDesk_extractAll {ε : Type} (config : Config) (server : Server) (chunks : List String)
    (d : Desk) : ((extractAll config server chunks : Session ε String).onDesk d).1 =
      .ok (assemble chunks.length (broughtBy server chunks)) := by
  unfold extractAll
  rw [map_finishedChunks]
  obtain ⟨posts, pauses, h⟩ := @onDesk_forIn_noteAttempts ε config server (sentChunks chunks) d
  rw [onDesk_bind_of_ok h]
  rfl

/-- The text that is extracted does not depend on the order in which workers finish. It is made of one
text for each chunk, which depends on this chunk and the replies to it in its place alone. No run of the pool goes
on forever or gets stuck, and however it went, the texts that were brought are joined in the order of
the chunks. So is any other order of the finished chunks, and so does the tool. -/
theorem extraction_anyOrder (server : Server) (chunks : List String) :
    ∃ texts, List.Forall₂ (fun p => Extracts (server p.2 p.1) p.1) chunks.zipIdx texts ∧
      (∀ n p, Pool.Run server chunks n p → n ≤ attemptLimit * chunks.length ∧
        (p.working ≠ [] → ∃ q, Pool.Step server p q) ∧
        (p.working = [] → assemble chunks.length p.finished = joined texts)) ∧
      (∀ done : List (Nat × Attempts), done.Perm (finishedChunks server chunks) →
        assemble chunks.length (done.map fun (i, a) => (i, a.text)) = joined texts) ∧
      ∀ (ε : Type) (config : Config) (d : Desk),
        ((extractAll config server chunks : Session ε String).onDesk d).1 = .ok (joined texts) := by
  refine ⟨textsOf server chunks, extracts_textsOf server chunks, ?_, ?_, ?_⟩
  · intro n p hrun
    have hreached := hrun.reached
    refine ⟨Nat.le_of_add_right_le hreached.steps, Pool.exists_step, fun hdone => ?_⟩
    apply assemble_of_perm
    have hperm := hreached.perm
    rw [hdone] at hperm
    simpa using hperm
  · intro done hdone
    apply assemble_of_perm
    rw [← map_finishedChunks]
    exact hdone.map _
  · intro ε config d
    rw [onDesk_extractAll, assemble_of_perm (.refl _)]

/-- A server that fails at first with the chunk in the first place and answers others at once. -/
def lateServer : Server := fun place _ attempt =>
  if place = 0 ∧ attempt = 0 then .failed ⟨true, "timed out"⟩
  else .answer 200 "" (.ok (.dict [("choices", .list [.dict [("message",
    .dict [("content", .str (if place = 0 then "late" else "early"))])]])]))

theorem lateChunk_keepsPlace :
    ∃ p, Pool.Run lateServer ["a = 1", "none", "a = 1"] 3 p ∧
      p.finished = [(2, "early"), (0, "late")] ∧
      assemble 3 p.finished = "late\n\nearly" ∧
      ∀ (config : Config) (d : Desk),
        ((extractAll config lateServer ["a = 1", "none", "a = 1"] : Session Empty String).onDesk d).1 =
          .ok "late\n\nearly" := by
  have hrun : Pool.Run lateServer ["a = 1", "none", "a = 1"] 3
      ⟨[], [(2, "early"), (0, "late")]⟩ := by
    refine .step (p := ⟨[⟨0, "a = 1", 1⟩], [(2, "early")]⟩)
      (.step (p := ⟨[⟨0, "a = 1", 1⟩, ⟨2, "a = 1", 0⟩], []⟩) (.step .start ?_) ?_) ?_
    · exact @Pool.Step.retry lateServer [] [⟨2, "a = 1", 0⟩] ⟨0, "a = 1", 0⟩ [] ⟨_, rfl⟩ (by decide)
    · exact @Pool.Step.good lateServer [⟨0, "a = 1", 1⟩] [] ⟨2, "a = 1", 0⟩ [] "early" rfl
    · exact @Pool.Step.good lateServer [] [] ⟨0, "a = 1", 1⟩ [(2, "early")] "late" rfl
  obtain ⟨texts, -, hruns, -, htool⟩ := extraction_anyOrder lateServer ["a = 1", "none", "a = 1"]
  have hjoined := (hruns 3 _ hrun).2.2 rfl
  have htext : assemble 3 [(2, "early"), (0, "late")] = "late\n\nearly" := by decide
  refine ⟨_, hrun, rfl, htext, fun config d => ?_⟩
  rw [htool, ← hjoined]
  exact congrArg Except.ok htext

end Extraction

end Workbench
