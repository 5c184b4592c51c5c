import Workbench.World.Usage

/-!
# What sessions do

A session run at a desk gives an outcome and the desk as it is left. What is printed is never taken
back.
-/

namespace Workbench

def printed (lines : Notes) : String := String.join (lines.map (· ++ "\n"))

@[simp] theorem printed_nil : printed [] = "" := rfl

@[simp] theorem printed_cons (line : String) (lines : Notes) :
    printed (line :: lines) = line ++ "\n" ++ printed lines := by
  simp [printed]

theorem printed_append (l l' : Notes) : printed (l ++ l') = printed l ++ printed l' := by
  simp [printed]

theorem intercalate_concat (l : List String) (last : String) :
    String.intercalate "\n" (l ++ [last]) = printed l ++ last := by
  induction l with
  | nil => simp
  | cons a l ih =>
    rw [List.cons_append, String.intercalate_cons_of_ne_nil (by simp), ih, printed_cons]
    simp only [String.append_assoc]

def Desk.plus (d : Desk) (text : String) : Desk := { d with out := d.out ++ text }

@[simp] theorem Desk.out_plus (d : Desk) (text : String) : (d.plus text).out = d.out ++ text := rfl

@[simp] theorem Desk.files_plus (d : Desk) (text : String) : (d.plus text).files = d.files := rfl

@[simp] theorem Desk.plus_plus (d : Desk) (s t : String) : (d.plus s).plus t = d.plus (s ++ t) := by
  simp [Desk.plus, String.append_assoc]

@[simp] theorem Desk.plus_empty (d : Desk) : d.plus "" = d := by
  simp [Desk.plus]

namespace Files.Change

variable {α β : Type}

def on (c : Change α) (files : Files) : Except FileFault α × Files := (ExceptT.run c).run files

theorem on_get_bind (k : Files → Change α) (files : Files) :
    (get >>= k).on files = (k files).on files := rfl

theorem on_bind (c : Change α) (k : α → Change β) (files : Files) :
    (c >>= k).on files = match c.on files with
      | (.ok a, files') => (k a).on files'
      | (.error e, files') => (.error e, files') := by
  unfold on
  rw [ExceptT.run_bind, StateT.run_bind]
  cases (StateT.run (ExceptT.run c) files : Except FileFault α × Files) with
  | mk result files' => cases result <;> rfl

theorem on_tryCatch (c : Change α) (k : FileFault → Change α) (files : Files) :
    (tryCatch c k).on files = match c.on files with
      | (.ok a, files') => (.ok a, files')
      | (.error e, files') => (k e).on files' := by
  unfold on
  rw [ExceptT.run_tryCatch, StateT.run_bind]
  cases (StateT.run (ExceptT.run c) files : Except FileFault α × Files) with
  | mk result files' => cases result <;> rfl

theorem on_step (f : Files → Except FileFault Files) (files : Files) :
    (step f).on files = match f files with
      | .ok files' => (.ok (), files')
      | .error e => (.error e, files) := by
  change (match f files with
    | .ok files => modify fun _ => files
    | .error e => throw e : Change Unit).on files = _
  cases f files <;> rfl

end Files.Change

namespace Session

variable {ε σ α β : Type} {d : Desk}

def onDesk (x : Session ε α) (d : Desk) : Except (Stop ε) α × Desk := (ExceptT.run x).run d

theorem onDesk_bind (x : Session ε α) (f : α → Session ε β) (d : Desk) :
    (x >>= f).onDesk d = match x.onDesk d with
      | (.ok a, d₁) => (f a).onDesk d₁
      | (.error e, d₁) => (.error e, d₁) := by
  simp only [onDesk, ExceptT.run_bind, StateT.run_bind]
  change _ = match (StateT.run (ExceptT.run x) d : Except (Stop ε) α × Desk) with
    | (.ok a, d₁) => (f a).onDesk d₁
    | (.error e, d₁) => (.error e, d₁)
  rcases (StateT.run (ExceptT.run x) d : Except (Stop ε) α × Desk) with ⟨_ | _, _⟩ <;> rfl

@[simp] theorem onDesk_pure (a : α) : (pure a : Session ε α).onDesk d = (.ok a, d) := rfl

@[simp] theorem onDesk_get : (get : Session ε Desk).onDesk d = (.ok d, d) := rfl

@[simp] theorem onDesk_files : (files : Session ε Files).onDesk d = (.ok d.files, d) := rfl

@[simp] theorem onDesk_say (line : String) :
    (say line : Session ε Unit).onDesk d = (.ok (), d.plus (line ++ "\n")) := by
  rw [Desk.plus, ← String.append_assoc]
  rfl

@[simp] theorem onDesk_exit (code : Nat) : (exit code : Session ε α).onDesk d = (.error (.exit code), d) :=
  rfl

@[simp] theorem onDesk_fail (cause : ε) : (fail cause : Session ε α).onDesk d = (.error (.fault cause), d) :=
  rfl

@[simp] theorem onDesk_demand_ok (lift : σ → ε) (a : α) :
    (demand lift (.ok a)).onDesk d = (.ok a, d) := rfl

@[simp] theorem onDesk_demand_error (lift : σ → ε) (e : σ) :
    (demand lift (.error e) : Session ε α).onDesk d = (.error (.fault (lift e)), d) := rfl

theorem onDesk_bind_of_ok {x : Session ε α} {f : α → Session ε β} {a : α} {d₁ : Desk}
    (h : x.onDesk d = (.ok a, d₁)) : (x >>= f).onDesk d = (f a).onDesk d₁ := by
  rw [onDesk_bind, h]

theorem onDesk_bind_eq_ok {x : Session ε α} {f : α → Session ε β} {b : β} {d₁ : Desk}
    (h : (x >>= f).onDesk d = (.ok b, d₁)) :
    ∃ a d₀, x.onDesk d = (.ok a, d₀) ∧ (f a).onDesk d₀ = (.ok b, d₁) := by
  rw [onDesk_bind] at h
  rcases hx : x.onDesk d with ⟨_ | a, d₀⟩
  · rw [hx] at h
    cases h
  · rw [hx] at h
    exact ⟨a, d₀, rfl, h⟩

theorem onDesk_change (lift : FileFault → ε) (c : Files.Change Unit) :
    (change lift c).onDesk d =
      ((c.on d.files).1.mapError fun e => .fault (lift e), { d with files := (c.on d.files).2 }) := by
  unfold change
  rw [onDesk_bind_of_ok onDesk_get]
  unfold Files.Change.on
  rcases (ExceptT.run c).run d.files with ⟨_ | _, files⟩ <;> rfl

theorem onDesk_print (text : String) :
    (print text : Session ε Unit).onDesk d = (.ok (), d.plus text) := rfl

theorem onDesk_note (posts : List Post) (pauses : Nat) :
    (note posts pauses : Session ε Unit).onDesk d =
      (.ok (), { d with posts := d.posts ++ posts, pauses := d.pauses + pauses }) := rfl

theorem onDesk_apart (x : Session σ β) :
    (apart x : Session ε (Aside σ β)).onDesk d =
      (.ok ⟨(x.on d.files).1, (x.on d.files).2.out, (x.on d.files).2.complaints⟩,
        { d with
          files := (x.on d.files).2.files
          posts := d.posts ++ (x.on d.files).2.posts
          pauses := d.pauses + (x.on d.files).2.pauses }) := rfl

theorem onDesk_given_ok {g : CommandLine.Grammar} {args : List String} {read : CommandLine.Given}
    (h : g.read args = .ok read) : (given g args : Session ε CommandLine.Given).onDesk d = (.ok read, d) := by
  unfold given
  rw [h]
  rfl

@[simp] theorem onDesk_forM_say (lines : Notes) :
    (lines.forM say : Session ε Unit).onDesk d = (.ok (), d.plus (printed lines)) := by
  induction lines generalizing d with
  | nil => simp
  | cons line lines ih =>
    change (say line >>= fun _ => lines.forM say).onDesk d = _
    rw [onDesk_bind_of_ok (onDesk_say line), ih]
    simp

/-! ## What was printed stays -/

/-- All that the session does to what was printed is to print more. -/
def Speaks (x : Session ε α) : Prop := ∀ d, ∃ text, (x.onDesk d).2.out = d.out ++ text

theorem Speaks.of_out {x : Session ε α} (h : ∀ d, (x.onDesk d).2.out = d.out) : x.Speaks :=
  fun d => ⟨"", by rw [h d, String.append_empty]⟩

theorem Speaks.bind {x : Session ε α} {f : α → Session ε β} (hx : x.Speaks)
    (hf : ∀ a, (f a).Speaks) : (x >>= f).Speaks := by
  intro d
  obtain ⟨s, hs⟩ := hx d
  rw [onDesk_bind]
  rcases hd : x.onDesk d with ⟨_ | a, d₁⟩
  · exact ⟨s, by rw [hd] at hs; exact hs⟩
  · obtain ⟨t, ht⟩ := hf a d₁
    have hs : d₁.out = d.out ++ s := by rw [hd] at hs; exact hs
    exact ⟨s ++ t, by rw [ht, hs, String.append_assoc]⟩

theorem Speaks.pure (a : α) : (pure a : Session ε α).Speaks := .of_out fun _ => rfl

theorem Speaks.fail (e : ε) : (fail e : Session ε α).Speaks := .of_out fun _ => rfl

theorem Speaks.files : (files : Session ε Files).Speaks := .of_out fun _ => rfl

theorem Speaks.say (line : String) : (say line : Session ε Unit).Speaks :=
  fun d => ⟨line ++ "\n", by rw [onDesk_say, Desk.out_plus]⟩

theorem Speaks.demand (lift : σ → ε) (r : Except σ α) : (demand lift r).Speaks := by
  cases r with
  | ok a => exact .pure a
  | error e => exact .fail (lift e)

theorem Speaks.change (lift : FileFault → ε) (c : Files.Change Unit) : (change lift c).Speaks := by
  refine .of_out fun d => ?_
  rw [Session.change, onDesk_bind_of_ok onDesk_get]
  rcases (ExceptT.run c).run d.files with ⟨_ | _, files⟩ <;> rfl

/-! ## What goes by the files alone -/

/-- Neither the outcome nor the files that are left depend on anything else at the desk. -/
def ByFiles (x : Session ε α) : Prop :=
  ∀ d d', d.files = d'.files →
    (x.onDesk d).1 = (x.onDesk d').1 ∧ (x.onDesk d).2.files = (x.onDesk d').2.files

theorem ByFiles.bind {x : Session ε α} {f : α → Session ε β} (hx : x.ByFiles)
    (hf : ∀ a, (f a).ByFiles) : (x >>= f).ByFiles := by
  intro d d' h
  obtain ⟨hresult, hfiles⟩ := hx d d' h
  rw [onDesk_bind, onDesk_bind]
  rcases hd : x.onDesk d with ⟨r, d₁⟩
  rcases hd' : x.onDesk d' with ⟨r', d₁'⟩
  rw [hd, hd'] at hresult hfiles
  cases hresult
  cases r with
  | error e => exact ⟨rfl, hfiles⟩
  | ok a => exact hf a d₁ d₁' hfiles

theorem ByFiles.pure (a : α) : (pure a : Session ε α).ByFiles := fun _ _ h => ⟨rfl, h⟩

theorem ByFiles.fail (e : ε) : (fail e : Session ε α).ByFiles := fun _ _ h => ⟨rfl, h⟩

theorem ByFiles.exit (code : Nat) : (exit code : Session ε α).ByFiles := fun _ _ h => ⟨rfl, h⟩

theorem ByFiles.say (line : String) : (say line : Session ε Unit).ByFiles := fun _ _ h => ⟨rfl, h⟩

theorem ByFiles.files : (files : Session ε Files).ByFiles :=
  fun _ _ h => ⟨congrArg Except.ok h, h⟩

theorem ByFiles.demand (lift : σ → ε) (r : Except σ α) : (demand lift r).ByFiles := by
  cases r with
  | ok a => exact .pure a
  | error e => exact .fail (lift e)

theorem ByFiles.change (lift : FileFault → ε) (c : Files.Change Unit) : (change lift c).ByFiles := by
  intro d d' h
  rw [onDesk_change, onDesk_change, h]
  exact ⟨rfl, rfl⟩

theorem ByFiles.forM {l : List β} {f : β → Session ε Unit} (hf : ∀ b, (f b).ByFiles) :
    (l.forM f).ByFiles := by
  induction l with
  | nil => exact .pure ()
  | cons b l ih => exact .bind (hf b) fun _ => ih

end Session

end Workbench
