import Mathlib.Tactic.Common
import Workbench.Proofs.World.Path
import Workbench.World.Files

/-!
# What becomes of files

Names are followed through folders. As long as the folders stay, a name leads where it led before,
so a file that was written is found again, and any other file is as it was.
-/

namespace Workbench

theorem bind_eq_ok_iff {ε α β : Type} {x : Except ε α} {f : α → Except ε β} {b : β} :
    (x >>= f) = .ok b ↔ ∃ a, x = .ok a ∧ f a = .ok b := by
  cases x with
  | error e => simp [bind, Except.bind]
  | ok a => simp [bind, Except.bind]

theorem eq_ok_of_isOk {ε : Type} {x : Except ε Unit} (h : x.isOk = true) : x = .ok () := by
  cases x with
  | error e => cases h
  | ok a => rfl

namespace Files

variable {files files' : Files} {p q place : Place} {name : String} {content : Bytes}

/-! ## Items -/

@[simp] theorem item?_nil (files : Files) : files.item? [] = some .folder := rfl

theorem item?_of_ne_nil (hp : p ≠ []) :
    files.item? p = (files.items.find? fun x => x.1 == p).map Prod.snd := by
  unfold item?
  rw [if_neg (by simpa using hp)]

theorem ne_nil_of_item? (h : files.item? p ≠ some .folder) : p ≠ [] := by
  intro hp
  subst hp
  exact h rfl

theorem item?_set (hp : p ≠ []) (item : Item) (q : Place) :
    (files.set p item).item? q = if q = p then some item else files.item? q := by
  by_cases hq : q = []
  · subst hq
    simp [Ne.symm hp]
  rw [item?_of_ne_nil hq, item?_of_ne_nil hq]
  unfold set
  split
  · next hany =>
    have hfst : ((fun x : Place × Item => x.1 == q) ∘ fun x => if x.1 == p then (p, item) else x) =
        fun x => x.1 == q := by
      funext x
      by_cases hx : x.1 = p <;> simp [hx]
    simp only [List.find?_map, hfst, Option.map_map]
    cases hf : files.items.find? fun x => x.1 == q with
    | none =>
      have hqp : q ≠ p := by
        intro e
        subst e
        rw [List.find?_eq_none] at hf
        obtain ⟨x, hx, hxq⟩ := List.any_eq_true.mp hany
        exact hf x hx hxq
      simp [hqp]
    | some x =>
      have hx : x.1 = q := by simpa using List.find?_some hf
      by_cases hqp : q = p <;> simp [hx, hqp]
  · next hany =>
    simp only [List.find?_append]
    by_cases hqp : q = p
    · subst hqp
      have hnone : (files.items.find? fun x => x.1 == q) = none := by
        rw [List.find?_eq_none]
        exact fun x hx hxq => hany (List.any_eq_true.mpr ⟨x, hx, hxq⟩)
      simp [hnone]
    · rw [if_neg hqp]
      have hlast : ([(p, item)].find? fun x => x.1 == q) = none := by simp [Ne.symm hqp]
      rw [hlast, Option.or_none]

@[simp] theorem root_set (item : Item) : (files.set p item).root = files.root := by
  unfold set
  split <;> rfl

/-! ## Following names -/

theorem enter_eq_ok_iff : files.enter p = .ok () ↔ files.item? p = some .folder := by
  unfold enter
  cases files.item? p with
  | none => simp
  | some item => cases item <;> simp

theorem follow_cons_eq_ok_iff {part : String} {parts : List String} :
    files.follow p (part :: parts) = .ok q ↔
      files.item? p = some .folder ∧ ∃ r, move p part = .ok r ∧ files.follow r parts = .ok q := by
  rw [follow, bind_eq_ok_iff, ← enter_eq_ok_iff]
  constructor
  · rintro ⟨⟨⟩, henter, h⟩
    exact ⟨henter, bind_eq_ok_iff.mp h⟩
  · rintro ⟨henter, h⟩
    exact ⟨(), henter, bind_eq_ok_iff.mpr h⟩

theorem follow_append_eq_ok_iff {parts parts' : List String} :
    files.follow p (parts ++ parts') = .ok q ↔
      ∃ r, files.follow p parts = .ok r ∧ files.follow r parts' = .ok q := by
  induction parts generalizing p with
  | nil => simp [follow]
  | cons part parts ih =>
    rw [List.cons_append, follow_cons_eq_ok_iff]
    simp only [follow_cons_eq_ok_iff, ih]
    constructor
    · rintro ⟨henter, s, hs, r, hr, hq⟩
      exact ⟨r, ⟨henter, s, hs, hr⟩, hq⟩
    · rintro ⟨r, ⟨henter, s, hs, hr⟩, hq⟩
      exact ⟨henter, s, hs, r, hr, hq⟩

theorem move_of_proper {part : String} (h : part ≠ "") (hpoint : part ≠ ".") (hpoints : part ≠ "..") :
    move p part = if partLimit < byteLength part then .error .tooLong else .ok (p ++ [part]) := by
  unfold move
  rw [if_neg (by simp [h, hpoint]), if_neg hpoints]

/-- The place that a name gives to a file: in a folder that is there, and under a name of its own. -/
def spot (files : Files) (name : String) : Except FileFault Place := do
  let slot ← files.slot name
  if slot.isOwn || slot.slashed then throw .isFolder
  move slot.folder slot.name

theorem slot_of_partsOf {front : List String} {last : String} {folder : Place}
    (hparts : files.partsOf name = .ok (front ++ [last])) (hfollow : files.follow [] front = .ok folder)
    (henter : files.item? folder = some .folder) (hlast : last ≠ "") :
    files.slot name = .ok ⟨folder, last, false⟩ := by
  have hkept : ((front ++ [last]).reverse.dropWhile (· == "")).reverse = front ++ [last] := by
    simp [hlast]
  unfold slot
  refine bind_eq_ok_iff.mpr ⟨_, hparts, ?_⟩
  rw [hkept]
  refine bind_eq_ok_iff.mpr ⟨folder, by rwa [List.dropLast_concat], ?_⟩
  refine bind_eq_ok_iff.mpr ⟨(), enter_eq_ok_iff.mpr henter, ?_⟩
  simp [pure, Except.pure]

theorem spot_eq_ok_iff :
    files.spot name = .ok place ↔
      ∃ front last folder, files.partsOf name = .ok (front ++ [last]) ∧
        files.follow [] front = .ok folder ∧ files.item? folder = some .folder ∧
        last ≠ "" ∧ last ≠ "." ∧ last ≠ ".." ∧ byteLength last ≤ partLimit ∧
        place = folder ++ [last] := by
  constructor
  · intro h
    obtain ⟨slot, hslot, h⟩ := bind_eq_ok_iff.mp h
    obtain ⟨parts, hparts, hslot⟩ := bind_eq_ok_iff.mp hslot
    obtain ⟨folder, hfollow, hslot⟩ := bind_eq_ok_iff.mp hslot
    obtain ⟨⟨⟩, henter, hslot⟩ := bind_eq_ok_iff.mp hslot
    cases hslot
    generalize hkept : (parts.reverse.dropWhile (· == "")).reverse = kept at h hfollow
    dsimp only at h
    split at h
    · cases h
    next hown =>
    simp only [Slot.isOwn, Bool.or_eq_true, beq_iff_eq, decide_eq_true_eq, not_or] at hown
    obtain ⟨⟨⟨hempty, hpoint⟩, hpoints⟩, hslashed⟩ := hown
    -- nothing was dropped at the end of the name
    have hprefix : kept <+: parts := by
      rw [← hkept, ← List.reverse_suffix, List.reverse_reverse]
      exact List.dropWhile_suffix _
    have hkept := hprefix.eq_of_length (by have := hprefix.length_le; omega)
    subst hkept
    have hne : kept ≠ [] := fun hnil => hempty (by simp [hnil])
    have hlast : kept.getLast?.getD "" = kept.getLast hne := by
      rw [List.getLast?_eq_some_getLast hne, Option.getD_some]
    rw [hlast] at h hempty hpoint hpoints
    rw [move_of_proper hempty hpoint hpoints] at h
    split at h
    · cases h
    next hlong =>
    cases h
    refine ⟨kept.dropLast, kept.getLast hne, folder, ?_, hfollow, enter_eq_ok_iff.mp henter, hempty,
      hpoint, hpoints, Nat.le_of_not_lt hlong, rfl⟩
    rw [List.dropLast_concat_getLast]
    exact hparts
  · rintro ⟨front, last, folder, hparts, hfollow, henter, hempty, hpoint, hpoints, hlong, rfl⟩
    have hslot := slot_of_partsOf hparts hfollow henter hempty
    unfold spot
    refine bind_eq_ok_iff.mpr ⟨_, hslot, ?_⟩
    simp only [Slot.isOwn, hempty, hpoint, hpoints, beq_iff_eq, Bool.or_false, Bool.or_eq_true,
      or_self, if_false]
    rw [move_of_proper hempty hpoint hpoints, if_neg (Nat.not_lt.mpr hlong)]

theorem locate_of_spot (h : files.spot name = .ok place) : files.locate name = .ok place := by
  obtain ⟨front, last, folder, hparts, hfollow, henter, hempty, hpoint, hpoints, hlong, rfl⟩ :=
    spot_eq_ok_iff.mp h
  refine bind_eq_ok_iff.mpr ⟨_, hparts, follow_append_eq_ok_iff.mpr ⟨folder, hfollow, ?_⟩⟩
  refine follow_cons_eq_ok_iff.mpr ⟨henter, folder ++ [last], ?_, rfl⟩
  rw [move_of_proper hempty hpoint hpoints, if_neg (Nat.not_lt.mpr hlong)]

/-- The last part of a name is the last of its parts below the working folder. -/
theorem base_of_partsOf {front : List String} {last : String}
    (h : files.partsOf name = .ok (front ++ [last])) : PathName.base name = last := by
  obtain ⟨⟨⟩, -, h⟩ := bind_eq_ok_iff.mp h
  split at h
  · cases h
  next parts hparts =>
  cases h
  unfold partsBelow at hparts
  dsimp only at hparts
  split at hparts
  · simp at hparts
  split at hparts
  · next hbelow =>
    obtain ⟨rest, hrest⟩ := List.isPrefixOf_iff_prefix.mp hbelow
    have hname : name = files.root ++ "/" ++ String.ofList rest := by
      apply String.toList_inj.mp
      simp [← hrest]
    have hdrop : name.toList.drop (files.root.toList.length + 1) = rest := by
      rw [← hrest]
      exact List.drop_left' (by simp)
    rw [hdrop] at hparts
    rw [hname, PathName.base_slash, PathName.base, Option.some.inj hparts]
    simp
  split at hparts
  · cases hparts
  · rw [PathName.base, Option.some.inj hparts]
    simp

theorem getLast_of_spot (h : files.spot name = .ok place) :
    place.getLast? = some (PathName.base name) := by
  obtain ⟨front, last, folder, hparts, -, -, -, -, -, -, rfl⟩ := spot_eq_ok_iff.mp h
  rw [base_of_partsOf hparts]
  simp

/-! ## Reading and writing -/

theorem look_eq_ok_iff {item : Item} :
    files.look name = .ok item ↔ ∃ p, files.locate name = .ok p ∧ files.item? p = some item := by
  unfold look
  rw [bind_eq_ok_iff]
  refine exists_congr fun p => and_congr_right fun _ => ?_
  cases files.item? p with
  | none => simp [throw, throwThe, MonadExceptOf.throw]
  | some item =>
    constructor
    · intro h
      cases h
      rfl
    · intro h
      cases h
      rfl

theorem find?_eq_some_iff {item : Item} :
    files.find? name = some item ↔ ∃ p, files.locate name = .ok p ∧ files.item? p = some item := by
  rw [← look_eq_ok_iff]
  unfold find?
  cases files.look name <;> simp [Except.toOption]

theorem isFolder_iff :
    files.isFolder name = true ↔ ∃ p, files.locate name = .ok p ∧ files.item? p = some .folder := by
  rw [← find?_eq_some_iff, isFolder, beq_iff_eq]

theorem read_eq_ok_iff :
    files.read name = .ok content ↔
      ∃ p, files.locate name = .ok p ∧ files.item? p = some (.file content) := by
  rw [← look_eq_ok_iff]
  unfold read
  rw [bind_eq_ok_iff]
  constructor
  · rintro ⟨item, hitem, h⟩
    cases item with
    | folder => cases h
    | file c => cases h; exact hitem
  · intro h
    exact ⟨_, h, rfl⟩

theorem isFolder_eq_false_of_read (h : files.read name = .ok content) : files.isFolder name = false := by
  rw [Bool.eq_false_iff]
  intro hfolder
  obtain ⟨p, hp, hitem⟩ := read_eq_ok_iff.mp h
  obtain ⟨p', hp', hitem'⟩ := isFolder_iff.mp hfolder
  cases hp.symm.trans hp'
  cases hitem.symm.trans hitem'

theorem write_eq_ok_iff :
    files.write name content = .ok files' ↔
      ∃ p, files.spot name = .ok p ∧ files.item? p ≠ some .folder ∧
        files' = files.set p (.file content) := by
  have hwrite : files.write name content = files.spot name >>= fun p =>
      if files.item? p = some .folder then throw .isFolder
      else return files.set p (.file content) := by
    unfold write spot
    cases files.slot name with
    | error e => rfl
    | ok slot =>
      simp only [bind, Except.bind]
      split
      · rfl
      · cases move slot.folder slot.name with
        | error e => rfl
        | ok p =>
          dsimp only
          rcases files.item? p with _ | _ | c <;> rfl
  rw [hwrite, bind_eq_ok_iff]
  refine exists_congr fun p => and_congr_right fun _ => ?_
  have hfile : (return files.set p (.file content) : Except FileFault Files) = .ok files' ↔
      files' = files.set p (.file content) := by
    change Except.ok _ = _ ↔ _
    rw [Except.ok.injEq, eq_comm]
  rcases files.item? p with _ | _ | c
  · simpa using hfile
  · simp [throw, throwThe, MonadExceptOf.throw]
  · simpa using hfile

/-- A file of the name can be written. -/
def Free (files : Files) (name : String) : Prop := ∃ files', files.write name [] = .ok files'

theorem exists_write_iff (content : Bytes) :
    (∃ files', files.write name content = .ok files') ↔
      ∃ p, files.spot name = .ok p ∧ files.item? p ≠ some .folder := by
  simp only [write_eq_ok_iff]
  constructor
  · rintro ⟨_, p, hp, hitem, -⟩
    exact ⟨p, hp, hitem⟩
  · rintro ⟨p, hp, hitem⟩
    exact ⟨_, p, hp, hitem, rfl⟩

theorem free_iff :
    files.Free name ↔ ∃ p, files.spot name = .ok p ∧ files.item? p ≠ some .folder :=
  exists_write_iff []

/-! ## Folders that stay -/

structure Keeps (files files' : Files) : Prop where
  root : files'.root = files.root
  folders : ∀ p, files.item? p = some .folder → files'.item? p = some .folder

namespace Keeps

theorem refl (files : Files) : Keeps files files := ⟨rfl, fun _ h => h⟩

theorem trans {files'' : Files} (h : Keeps files files') (h' : Keeps files' files'') :
    Keeps files files'' :=
  ⟨h'.root.trans h.root, fun p hp => h'.folders p (h.folders p hp)⟩

theorem partsOf (h : Keeps files files') (name : String) : files'.partsOf name = files.partsOf name := by
  unfold Files.partsOf partsBelow
  rw [h.root]

theorem follow (h : Keeps files files') {parts : List String} (hq : files.follow p parts = .ok q) :
    files'.follow p parts = .ok q := by
  induction parts generalizing p with
  | nil => exact hq
  | cons part parts ih =>
    obtain ⟨henter, r, hr, hq⟩ := follow_cons_eq_ok_iff.mp hq
    exact follow_cons_eq_ok_iff.mpr ⟨h.folders p henter, r, hr, ih hq⟩

theorem locate (h : Keeps files files') (hp : files.locate name = .ok p) :
    files'.locate name = .ok p := by
  obtain ⟨parts, hparts, hp⟩ := bind_eq_ok_iff.mp hp
  exact bind_eq_ok_iff.mpr ⟨parts, (h.partsOf name).trans hparts, h.follow hp⟩

theorem spot (h : Keeps files files') (hp : files.spot name = .ok p) :
    files'.spot name = .ok p := by
  obtain ⟨front, last, folder, hparts, hfollow, henter, hrest⟩ := spot_eq_ok_iff.mp hp
  exact spot_eq_ok_iff.mpr ⟨front, last, folder, (h.partsOf name).trans hparts, h.follow hfollow,
    h.folders folder henter, hrest⟩

end Keeps

theorem keeps_set (hp : p ≠ []) (hitem : files.item? p ≠ some .folder) (item : Item) :
    Keeps files (files.set p item) := by
  refine ⟨root_set item, fun q hq => ?_⟩
  have hqp : q ≠ p := fun e => hitem (e ▸ hq)
  rw [item?_set hp, if_neg hqp, hq]

theorem keeps_of_set_file (hp : p ≠ []) (content : Bytes) :
    Keeps (files.set p (.file content)) files := by
  refine ⟨(root_set _).symm, fun q hq => ?_⟩
  rw [item?_set hp] at hq
  split at hq
  · cases hq
  · exact hq

section

variable (h : files.write name content = .ok files')

include h

theorem keeps_of_write : Keeps files files' ∧ Keeps files' files := by
  obtain ⟨p, -, hitem, rfl⟩ := write_eq_ok_iff.mp h
  have hp := ne_nil_of_item? hitem
  exact ⟨keeps_set hp hitem _, keeps_of_set_file hp content⟩

/-- Whether a file can be written does not depend on files that were written before. -/
theorem free_of_write (other : String) : files'.Free other ↔ files.Free other := by
  obtain ⟨hkeeps, hkept⟩ := keeps_of_write h
  simp only [free_iff]
  constructor
  · rintro ⟨p, hp, hitem⟩
    exact ⟨p, hkept.spot hp, fun hq => hitem (hkeeps.folders p hq)⟩
  · rintro ⟨p, hp, hitem⟩
    exact ⟨p, hkeeps.spot hp, fun hq => hitem (hkept.folders p hq)⟩

theorem read_of_write : files'.read name = .ok content := by
  obtain ⟨p, hp, hitem, hset⟩ := write_eq_ok_iff.mp h
  refine read_eq_ok_iff.mpr ⟨p, (keeps_of_write h).1.locate (locate_of_spot hp), ?_⟩
  rw [hset, item?_set (ne_nil_of_item? hitem), if_pos rfl]

theorem read_of_write_other {other : String} {c : Bytes} (hspot : ∃ q, files.spot other = .ok q)
    (hother : PathName.base other ≠ PathName.base name) (hread : files.read other = .ok c) :
    files'.read other = .ok c := by
  obtain ⟨p, hp, hitem, hset⟩ := write_eq_ok_iff.mp h
  obtain ⟨q, hq⟩ := hspot
  obtain ⟨r, hr, hc⟩ := read_eq_ok_iff.mp hread
  have hrq : r = q := by
    rw [locate_of_spot hq] at hr
    exact (Except.ok.inj hr).symm
  have hqp : q ≠ p := by
    intro e
    have hlast := getLast_of_spot hq
    rw [e, getLast_of_spot hp] at hlast
    exact hother (Option.some.inj hlast).symm
  refine read_eq_ok_iff.mpr ⟨r, (keeps_of_write h).1.locate hr, ?_⟩
  rw [hset, item?_set (ne_nil_of_item? hitem), if_neg (hrq ▸ hqp), hc]

end

end Files

end Workbench
