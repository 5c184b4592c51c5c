import Workbench.Proofs.World.Files
import Workbench.Proofs.World.Session

/-!
# Names that lead to folders

Where a name leads to a folder, that name, a slash and a further part lead to an item of the folder.
What such a name does then depends on that item alone, and on whether the name is too long.
-/

namespace Workbench

namespace Files

variable {files files' : Files} {d x : String} {p q : Place} {content : Bytes}

/-! ## Names that can be -/

structure Proper (x : String) : Prop where
  ne_empty : x ≠ ""
  ne_point : x ≠ "."
  ne_points : x ≠ ".."
  slash : '/' ∉ x.toList

instance (x : String) : Decidable (Proper x) :=
  decidable_of_iff (x ≠ "" ∧ x ≠ "." ∧ x ≠ ".." ∧ '/' ∉ x.toList)
    ⟨fun ⟨h, h', h'', h'''⟩ => ⟨h, h', h'', h'''⟩, fun ⟨h, h', h'', h'''⟩ => ⟨h, h', h'', h'''⟩⟩

theorem Proper.plain (hx : Proper x) : PathName.Plain x :=
  PathName.plain_of_not_mem hx.ne_empty hx.slash

theorem proper_of_getLast? {c : Char} (hslash : '/' ∉ x.toList) (h : x.toList.getLast? = some c)
    (hc : c ≠ '.') : Proper x := by
  refine ⟨?_, ?_, ?_, hslash⟩
  · intro e
    simp [e] at h
  · intro e
    simp [e, Ne.symm hc] at h
  · intro e
    simp [e, Ne.symm hc] at h

theorem byteLength_append (s t : String) : byteLength (s ++ t) = byteLength s + byteLength t := by
  have hfold : ∀ (l : List Char) (n : Nat),
      l.foldl (fun n c => n + if isRawByte c then 1 else (Utf8.encodeChar c).length) n =
        n + l.foldl (fun n c => n + if isRawByte c then 1 else (Utf8.encodeChar c).length) 0 := by
    intro l
    induction l with
    | nil => simp
    | cons c l ih =>
      intro n
      rw [List.foldl_cons, ih, List.foldl_cons, ih (0 + _)]
      omega
  unfold byteLength
  rw [String.toList_append, List.foldl_append, hfold]

theorem checkName_eq_ok_iff :
    checkName x = .ok () ↔ (x.toList.any fun c => (Half.of? c).isSome && !isRawByte c) = false ∧
      '\x00' ∉ x.toList ∧ x ≠ "" ∧ byteLength x ≤ nameLimit := by
  unfold checkName
  generalize (x.toList.any fun c => (Half.of? c).isSome && !isRawByte c) = halves
  cases halves with
  | true => simp
  | false =>
    simp only [Bool.false_eq_true, if_false, true_and]
    split
    · simp_all
    split
    · simp_all
    split
    · simp_all
    · simp_all

theorem checkName_of_append {t : String} (hd : d ≠ "") (h : checkName (d ++ t) = .ok ()) :
    checkName d = .ok () := by
  rw [checkName_eq_ok_iff] at h ⊢
  obtain ⟨hhalves, hzero, -, hlong⟩ := h
  rw [String.toList_append, List.any_append, Bool.or_eq_false_iff] at hhalves
  rw [String.toList_append, List.mem_append, not_or] at hzero
  rw [byteLength_append] at hlong
  exact ⟨hhalves.1, hzero.1, hd, by omega⟩

def Fits (d x : String) : Prop := checkName (d ++ "/" ++ x) = .ok () ∧ byteLength x ≤ partLimit

theorem Fits.folder (hd : d ≠ "") (h : Fits d x) : checkName d = .ok () := by
  have hname := h.1
  rw [String.append_assoc] at hname
  exact checkName_of_append hd hname

/-! ## Leading to a folder -/

def Steps (files : Files) (d : String) (ps : List String) : Prop :=
  d = files.root ∧ ps = [] ∨ ∃ rest, d = files.root ++ "/" ++ rest ∧ ps = PathName.parts rest

theorem Steps.partsBelow {ps : List String} (h : files.Steps d ps) : files.partsBelow d = some ps := by
  unfold Files.partsBelow
  rcases h with ⟨rfl, rfl⟩ | ⟨rest, rfl, rfl⟩
  · simp
  · rw [PathName.toList_slash]
    dsimp only
    rw [if_neg (by simp), if_pos]
    · rw [List.drop_length_add_append]
      simp
    · rw [List.isPrefixOf_iff_prefix]
      exact ⟨rest.toList, by simp⟩

theorem Steps.child {ps : List String} (h : files.Steps d ps) (hx : '/' ∉ x.toList) :
    files.Steps (d ++ "/" ++ x) (ps ++ [x]) := by
  rcases h with ⟨rfl, rfl⟩ | ⟨rest, rfl, rfl⟩
  · exact .inr ⟨x, rfl, by rw [PathName.parts_of_not_mem hx]; rfl⟩
  · refine .inr ⟨rest ++ "/" ++ x, by simp [String.append_assoc], ?_⟩
    rw [PathName.parts_slash, PathName.parts_of_not_mem hx]

theorem steps_of_partsBelow {ps : List String} (hd : PathName.isAbsolute d = true)
    (h : files.partsBelow d = some ps) : files.Steps d ps := by
  unfold Files.partsBelow at h
  dsimp only at h
  split at h
  · next hroot => exact .inl ⟨String.toList_inj.mp hroot, (Option.some.inj h).symm⟩
  split at h
  · next hbelow =>
    obtain ⟨rest, hrest⟩ := List.isPrefixOf_iff_prefix.mp hbelow
    have hdrop : d.toList.drop (files.root.toList.length + 1) = rest := by
      rw [← hrest]
      exact List.drop_left' (by simp)
    refine .inr ⟨String.ofList rest, ?_, ?_⟩
    · apply String.toList_inj.mp
      simp [← hrest]
    · rw [← Option.some.inj h, hdrop]
  · cases h

/-- A name that starts with the name of the working folder and leads to a folder. -/
structure Leads (files : Files) (d : String) (q : Place) : Prop where
  plain : PathName.Plain d
  reaches : ∃ ps, files.Steps d ps ∧ files.follow [] ps = .ok q
  folder : files.item? q = some .folder

theorem Keeps.leads (h : Keeps files files') (hd : files.Leads d q) : files'.Leads d q := by
  obtain ⟨ps, hsteps, hfollow⟩ := hd.reaches
  refine ⟨hd.plain, ⟨ps, ?_, h.follow hfollow⟩, h.folders q hd.folder⟩
  unfold Steps
  rw [h.root]
  exact hsteps

namespace Leads

theorem unique (h : files.Leads d p) (h' : files.Leads d q) : p = q := by
  obtain ⟨ps, hps, hp⟩ := h.reaches
  obtain ⟨qs, hqs, hq⟩ := h'.reaches
  have hsame : ps = qs := Option.some.inj (hps.partsBelow.symm.trans hqs.partsBelow)
  subst hsame
  exact Except.ok.inj (hp.symm.trans hq)

theorem partsOf {ps : List String} (hsteps : files.Steps d ps) {rs : List String} :
    files.partsOf d = .ok rs ↔ checkName d = .ok () ∧ rs = ps := by
  unfold Files.partsOf
  rw [bind_eq_ok_iff, hsteps.partsBelow]
  constructor
  · rintro ⟨⟨⟩, hname, h⟩
    cases h
    exact ⟨hname, rfl⟩
  · rintro ⟨hname, rfl⟩
    exact ⟨(), hname, rfl⟩

theorem has (h : files.Leads d q) (hname : checkName d = .ok ()) : files.has d = true := by
  obtain ⟨ps, hsteps, hfollow⟩ := h.reaches
  have hlook : files.look d = .ok .folder :=
    look_eq_ok_iff.mpr ⟨q, bind_eq_ok_iff.mpr ⟨ps, (partsOf hsteps).mpr ⟨hname, rfl⟩, hfollow⟩,
      h.folder⟩
  unfold Files.has find?
  rw [hlook]
  rfl

section

variable (h : files.Leads d q) (hx : Proper x)

include h hx

theorem follow_child {ps : List String} (hfollow : files.follow [] ps = .ok q) :
    files.follow [] (ps ++ [x]) = .ok p ↔ byteLength x ≤ partLimit ∧ p = q ++ [x] := by
  have hmove : move q x = .ok p ↔ byteLength x ≤ partLimit ∧ p = q ++ [x] := by
    rw [move_of_proper hx.ne_empty hx.ne_point hx.ne_points]
    split
    · next hlong => simp [Nat.not_le.mpr hlong]
    · next hlong => simp [Nat.le_of_not_lt hlong, eq_comm]
  rw [follow_append_eq_ok_iff, ← hmove]
  constructor
  · rintro ⟨r, hr, hp⟩
    cases hfollow.symm.trans hr
    obtain ⟨-, r, hr, hp⟩ := follow_cons_eq_ok_iff.mp hp
    cases hp
    exact hr
  · intro hp
    exact ⟨q, hfollow, follow_cons_eq_ok_iff.mpr ⟨h.folder, p, hp, rfl⟩⟩

theorem locate_child : files.locate (d ++ "/" ++ x) = .ok p ↔ Fits d x ∧ p = q ++ [x] := by
  obtain ⟨ps, hsteps, hfollow⟩ := h.reaches
  unfold locate Fits
  rw [bind_eq_ok_iff, and_assoc, ← h.follow_child hx hfollow]
  constructor
  · rintro ⟨rs, hrs, hp⟩
    obtain ⟨hname, rfl⟩ := (partsOf (hsteps.child hx.slash)).mp hrs
    exact ⟨hname, hp⟩
  · rintro ⟨hname, hp⟩
    exact ⟨_, (partsOf (hsteps.child hx.slash)).mpr ⟨hname, rfl⟩, hp⟩

theorem spot_child : files.spot (d ++ "/" ++ x) = .ok p ↔ Fits d x ∧ p = q ++ [x] := by
  constructor
  · intro hspot
    exact (h.locate_child hx).mp (locate_of_spot hspot)
  · rintro ⟨⟨hname, hlong⟩, rfl⟩
    obtain ⟨ps, hsteps, hfollow⟩ := h.reaches
    exact spot_eq_ok_iff.mpr ⟨ps, x, q, (partsOf (hsteps.child hx.slash)).mpr ⟨hname, rfl⟩, hfollow,
      h.folder, hx.ne_empty, hx.ne_point, hx.ne_points, hlong, rfl⟩

theorem child (hlong : byteLength x ≤ partLimit) (hitem : files.item? (q ++ [x]) = some .folder) :
    files.Leads (d ++ "/" ++ x) (q ++ [x]) := by
  obtain ⟨ps, hsteps, hfollow⟩ := h.reaches
  exact ⟨PathName.plain_slash d hx.plain,
    ⟨ps ++ [x], hsteps.child hx.slash, (h.follow_child hx hfollow).mpr ⟨hlong, rfl⟩⟩, hitem⟩

theorem read_child :
    files.read (d ++ "/" ++ x) = .ok content ↔
      Fits d x ∧ files.item? (q ++ [x]) = some (.file content) := by
  rw [read_eq_ok_iff]
  simp only [h.locate_child hx]
  constructor
  · rintro ⟨p, ⟨hfits, rfl⟩, hitem⟩
    exact ⟨hfits, hitem⟩
  · rintro ⟨hfits, hitem⟩
    exact ⟨_, ⟨hfits, rfl⟩, hitem⟩

theorem has_child :
    files.has (d ++ "/" ++ x) = true ↔ Fits d x ∧ files.item? (q ++ [x]) ≠ none := by
  have hlook : files.has (d ++ "/" ++ x) = true ↔ ∃ item, files.look (d ++ "/" ++ x) = .ok item := by
    unfold Files.has find?
    cases files.look (d ++ "/" ++ x) <;> simp [Except.toOption]
  rw [hlook, Option.ne_none_iff_exists']
  simp only [look_eq_ok_iff, h.locate_child hx]
  constructor
  · rintro ⟨item, p, ⟨hfits, rfl⟩, hitem⟩
    exact ⟨hfits, item, hitem⟩
  · rintro ⟨hfits, item, hitem⟩
    exact ⟨item, _, ⟨hfits, rfl⟩, hitem⟩

theorem write_child :
    files.write (d ++ "/" ++ x) content = .ok files' ↔ Fits d x ∧
      files.item? (q ++ [x]) ≠ some .folder ∧ files' = files.set (q ++ [x]) (.file content) := by
  rw [write_eq_ok_iff]
  simp only [h.spot_child hx]
  constructor
  · rintro ⟨p, ⟨hfits, rfl⟩, hitem, rfl⟩
    exact ⟨hfits, hitem, rfl⟩
  · rintro ⟨hfits, hitem, rfl⟩
    exact ⟨_, ⟨hfits, rfl⟩, hitem, rfl⟩

theorem makeFolder_child :
    files.makeFolder (d ++ "/" ++ x) = .ok files' ↔ Fits d x ∧
      files.item? (q ++ [x]) = none ∧ files' = files.set (q ++ [x]) .folder := by
  obtain ⟨ps, hsteps, hfollow⟩ := h.reaches
  have hslot : checkName (d ++ "/" ++ x) = .ok () → files.slot (d ++ "/" ++ x) = .ok ⟨q, x, false⟩ :=
    fun hname => slot_of_partsOf ((partsOf (hsteps.child hx.slash)).mpr ⟨hname, rfl⟩) hfollow h.folder
      hx.ne_empty
  have hown : (⟨q, x, false⟩ : Slot).isOwn = false := by
    simp [Slot.isOwn, hx.ne_empty, hx.ne_point, hx.ne_points]
  unfold makeFolder Fits
  rw [bind_eq_ok_iff]
  constructor
  · rintro ⟨slot, hs, hmade⟩
    have hname : checkName (d ++ "/" ++ x) = .ok () := by
      obtain ⟨parts, hparts, -⟩ := bind_eq_ok_iff.mp hs
      exact ((partsOf (hsteps.child hx.slash)).mp hparts).1
    cases hs.symm.trans (hslot hname)
    rw [hown] at hmade
    obtain ⟨p, hp, hmade⟩ := bind_eq_ok_iff.mp hmade
    rw [move_of_proper hx.ne_empty hx.ne_point hx.ne_points] at hp
    split at hp
    · cases hp
    next hlong =>
    cases hp
    split at hmade
    · cases hmade
    next hitem =>
    cases hmade
    exact ⟨⟨hname, Nat.le_of_not_lt hlong⟩, by simpa using hitem, rfl⟩
  · rintro ⟨⟨hname, hlong⟩, hitem, rfl⟩
    refine ⟨_, hslot hname, ?_⟩
    rw [hown]
    refine bind_eq_ok_iff.mpr ⟨q ++ [x], ?_, ?_⟩
    · rw [move_of_proper hx.ne_empty hx.ne_point hx.ne_points, if_neg (Nat.not_lt.mpr hlong)]
    · simp [hitem, pure, Except.pure]

theorem makeAll_child (hname : checkName d = .ok ()) :
    (Change.makeAll false (d ++ "/" ++ x)).on files =
      (Change.step (·.makeFolder (d ++ "/" ++ x))).on files := by
  have hcut : Change.cutName (d ++ "/" ++ x) = (d, x) := by
    unfold Change.cutName
    rw [PathName.base_slash, PathName.base_of_not_mem hx.slash]
    simp only [if_neg hx.ne_empty]
    rw [PathName.folder_slash h.plain hx.slash, PathName.base_slash, PathName.base_of_not_mem hx.slash]
  unfold Change.makeAll Change.makeAllFrom
  rw [hcut]
  rw [Change.on_get_bind]
  simp [h.has hname]

end

section

variable {y : String} (h : files.Leads d q) (hx : Proper x) (hy : Proper y)

include h hx hy

theorem locate_grandchild :
    files.locate (d ++ "/" ++ x ++ "/" ++ y) = .ok p ↔ byteLength x ≤ partLimit ∧
      files.item? (q ++ [x]) = some .folder ∧ Fits (d ++ "/" ++ x) y ∧ p = q ++ [x] ++ [y] := by
  obtain ⟨ps, hsteps, hfollow⟩ := h.reaches
  have hparts := hsteps.child hx.slash
  constructor
  · intro hp
    obtain ⟨rs, hrs, hfound⟩ := bind_eq_ok_iff.mp hp
    obtain ⟨-, rfl⟩ := (partsOf (hparts.child hy.slash)).mp hrs
    obtain ⟨r, hr, hlast⟩ := follow_append_eq_ok_iff.mp hfound
    obtain ⟨hlong, rfl⟩ := (h.follow_child hx hfollow).mp hr
    have hitem := (follow_cons_eq_ok_iff.mp hlast).1
    exact ⟨hlong, hitem, ((h.child hx hlong hitem).locate_child hy).mp hp⟩
  · rintro ⟨hlong, hitem, hfits⟩
    exact ((h.child hx hlong hitem).locate_child hy).mpr hfits

theorem write_grandchild :
    files.write (d ++ "/" ++ x ++ "/" ++ y) content = .ok files' ↔ byteLength x ≤ partLimit ∧
      files.item? (q ++ [x]) = some .folder ∧ Fits (d ++ "/" ++ x) y ∧
      files.item? (q ++ [x] ++ [y]) ≠ some .folder ∧
      files' = files.set (q ++ [x] ++ [y]) (.file content) := by
  constructor
  · intro hwrite
    obtain ⟨p, hp, -⟩ := write_eq_ok_iff.mp hwrite
    obtain ⟨hlong, hitem, -⟩ := (h.locate_grandchild hx hy).mp (locate_of_spot hp)
    exact ⟨hlong, hitem, ((h.child hx hlong hitem).write_child hy).mp hwrite⟩
  · rintro ⟨hlong, hitem, hwrite⟩
    exact ((h.child hx hlong hitem).write_child hy).mpr hwrite

end

end Leads

/-! ## Only more -/

/-- Nothing was taken away or changed, and only folders are new. -/
structure Spares (files files' : Files) : Prop where
  root : files'.root = files.root
  items : ∀ p item, files.item? p = some item → files'.item? p = some item
  fresh : ∀ p c, files'.item? p = some (.file c) → files.item? p = some (.file c)

theorem Spares.refl (files : Files) : Spares files files := ⟨rfl, fun _ _ h => h, fun _ _ h => h⟩

theorem Spares.trans {files'' : Files} (h : Spares files files') (h' : Spares files' files'') :
    Spares files files'' :=
  ⟨h'.root.trans h.root, fun p item hp => h'.items p item (h.items p item hp),
    fun p c hp => h.fresh p c (h'.fresh p c hp)⟩

theorem Spares.keeps (h : Spares files files') : Keeps files files' :=
  ⟨h.root, fun p hp => h.items p _ hp⟩

theorem spares_setFolder (hp : files.item? p = none) : Spares files (files.set p .folder) := by
  have hne : p ≠ [] := @ne_nil_of_item? files p (by simp [hp])
  refine ⟨root_set .folder, fun r other hr => ?_, fun r c hr => ?_⟩
  · have hrp : r ≠ p := by
      intro e
      rw [e, hp] at hr
      cases hr
    rw [item?_set hne, if_neg hrp, hr]
  · rw [item?_set hne] at hr
    split at hr
    · cases hr
    · exact hr

theorem spares_of_makeFolder {name : String} (h : files.makeFolder name = .ok files') :
    Spares files files' := by
  obtain ⟨slot, -, h⟩ := bind_eq_ok_iff.mp h
  split at h
  · cases h
  obtain ⟨p, -, h⟩ := bind_eq_ok_iff.mp h
  split at h
  · cases h
  next hitem =>
  cases h
  exact spares_setFolder (by simpa using hitem)

namespace Change

variable {α β : Type}

def Adds (c : Change α) : Prop := ∀ files, Spares files (c.on files).2

theorem Adds.pure (a : α) : (pure a : Change α).Adds := .refl

theorem Adds.throw (e : FileFault) : (throw e : Change α).Adds := .refl

theorem Adds.get : (get : Change Files).Adds := .refl

theorem Adds.bind {c : Change α} {k : α → Change β} (hc : c.Adds) (hk : ∀ a, (k a).Adds) :
    (c >>= k).Adds := by
  intro files
  have hmore := hc files
  rw [on_bind]
  rcases h : c.on files with ⟨_ | a, files'⟩
  · rw [h] at hmore
    exact hmore
  · rw [h] at hmore
    exact hmore.trans (hk a files')

theorem Adds.tryCatch {c : Change α} {k : FileFault → Change α} (hc : c.Adds)
    (hk : ∀ e, (k e).Adds) : (tryCatch c k).Adds := by
  intro files
  have hmore := hc files
  rw [on_tryCatch]
  rcases h : c.on files with ⟨e | a, files'⟩
  · rw [h] at hmore
    exact hmore.trans (hk e files')
  · rw [h] at hmore
    exact hmore

theorem adds_makeFolder (name : String) : (step (·.makeFolder name)).Adds := by
  intro files
  rw [on_step]
  cases h : files.makeFolder name with
  | error e => exact .refl files
  | ok files' => exact spares_of_makeFolder h

theorem adds_settle (name : String) : (settle name).Adds := by
  refine .tryCatch (adds_makeFolder name) fun e => .bind .get fun files => ?_
  split
  · exact .pure ()
  · exact .throw e

theorem adds_ensure (path : Path) : (ensure path).Adds := by
  unfold ensure
  generalize path.parts.reverse = parts
  induction parts with
  | nil => exact adds_settle _
  | cons part above ih =>
    refine .tryCatch (adds_settle _) fun e => ?_
    split
    · exact .bind ih fun _ => adds_settle _
    · exact .throw e

theorem adds_makeAll (again : Bool) (name : String) : (makeAll again name).Adds := by
  unfold makeAll
  generalize name.length + 1 = steps
  induction steps generalizing name with
  | zero => exact .throw _
  | succ steps ih =>
    have hlast : ∀ last : Bool, (if last = true then Pure.pure () else
        if again = true then settle name else step (·.makeFolder name) : Change Unit).Adds := by
      intro last
      cases last with
      | true => exact .pure ()
      | false => cases again with
        | true => exact adds_settle name
        | false => exact adds_makeFolder name
    unfold makeAllFrom
    rcases cutName name with ⟨head, tail⟩
    dsimp only
    refine Adds.bind .get fun files => ?_
    split
    · refine .bind (.tryCatch (ih _) fun e => ?_) fun _ => hlast _
      split
      · exact .pure ()
      · exact .throw e
    · exact hlast _

end Change

/-! ## Files as they can be -/

/-- The working folder has a full name, places are named and told apart, and whatever is there is in
a folder. -/
structure WellFormed (files : Files) : Prop where
  plain : PathName.Plain files.root
  absolute : PathName.isAbsolute files.root = true
  distinct : (files.items.map Prod.fst).Nodup
  named : ∀ e ∈ files.items, e.1 ≠ [] ∧ ∀ x ∈ e.1, Proper x ∧ byteLength x ≤ partLimit
  closed : ∀ e ∈ files.items, files.item? e.1.dropLast = some .folder

theorem WellFormed.item?_of_mem (h : files.WellFormed) {item : Item} (hp : (p, item) ∈ files.items) :
    files.item? p = some item := by
  rw [item?_of_ne_nil (h.named _ hp).1]
  have hfind : files.items.find? (fun e => e.1 == p) = some (p, item) := by
    have hdistinct := h.distinct
    generalize files.items = items at hp hdistinct
    induction items with
    | nil => cases hp
    | cons e items ih =>
      rw [List.map_cons, List.nodup_cons] at hdistinct
      cases hp with
      | head => simp
      | tail _ hp =>
        have hne : e.1 ≠ p := fun he => hdistinct.1 (he ▸ List.mem_map_of_mem hp)
        rw [List.find?_cons_of_neg (by simpa using hne)]
        exact ih hp hdistinct.2
  rw [hfind]
  rfl

theorem WellFormed.mem_of_item? (hp : p ≠ []) {item : Item} (h : files.item? p = some item) :
    (p, item) ∈ files.items := by
  rw [item?_of_ne_nil hp] at h
  obtain ⟨e, he, rfl⟩ := Option.map_eq_some_iff.mp h
  have hfst : e.1 = p := by simpa using List.find?_some he
  rw [← hfst]
  exact List.mem_of_find?_eq_some he

theorem mem_of_mem_entries {name : String} {item : Item} (h : (name, item) ∈ files.entries q) :
    (q ++ [name], item) ∈ files.items := by
  obtain ⟨⟨p, item'⟩, hp, h⟩ := List.mem_filterMap.mp h
  dsimp only at h
  split at h
  · next name' hlast =>
    split at h
    · next hfront =>
      cases h
      obtain ⟨front, rfl⟩ := List.getLast?_eq_some_iff.mp hlast
      rw [List.dropLast_concat] at hfront
      rw [← hfront]
      exact hp
    · cases h
  · cases h

end Files

end Workbench
