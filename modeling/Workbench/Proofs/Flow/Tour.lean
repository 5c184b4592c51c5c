import Workbench.Proofs.Flow.Output
import Workbench.Proofs.Text.Utf8

/-!
# Runs on a folder

A run on a folder takes up its source files one after the other and breaks off with the first that
does not go well. Files that differ in nothing but their extension have their lists under one name.
The list that is found for a file in the end is the last one written under its name, so it is the one
that a run on the file alone leaves exactly if no other list came after it and the run came that far.
-/

namespace Workbench.Flow

theorem Settings.Cell.read_of_shared {cell : Settings.Cell} {v : Value} (h : cell.shared = some v)
    (home : Home) (files : Files) (name : String) :
    cell.read home files name = ([], v, ⟨some v, some v⟩) := by
  unfold read
  rw [h]

namespace Command

open Session Files PathName

variable {files : Files}

/-! ## Source files below a folder -/

def below (dir : String) (way : List String) : String := way.foldl (fun d x => d ++ "/" ++ x) dir

theorem getLast?_of_extension {name : String}
    (h : ([".rs", ".py"].any fun ext => ext.toList.reverse.isPrefixOf name.toList.reverse) = true) :
    name.toList.getLast? = some 's' ∨ name.toList.getLast? = some 'y' := by
  rw [List.getLast?_eq_head?_reverse]
  obtain ⟨ext, hext, h⟩ := List.any_eq_true.mp h
  obtain ⟨rest, hrest⟩ := List.isPrefixOf_iff_prefix.mp h
  rw [← hrest]
  simp only [List.mem_cons, List.not_mem_nil, or_false] at hext
  rcases hext with rfl | rfl
  · exact .inl rfl
  · exact .inr rfl

/-- A source file at some depth below the folder that a name leads to. -/
def LiesBelow (files : Files) (dir : String) (q : Place) (file : String) : Prop :=
  ∃ way x, IsSource files (below dir way) (q ++ way) x ∧ file = below dir way ++ "/" ++ x

theorem liesBelow_of_mem (hfiles : files.WellFormed) {depth : Nat} {dir file : String} {q : Place}
    (hd : files.Leads dir q) (h : file ∈ sourcesBelow files depth dir q) :
    LiesBelow files dir q file := by
  induction depth generalizing dir q with
  | zero => cases h
  | succ depth ih =>
    have hentry : ∀ {name item}, (name, item) ∈ files.entries q →
        Proper name ∧ byteLength name ≤ partLimit ∧ files.item? (q ++ [name]) = some item := by
      intro name item he
      have hmem := mem_of_mem_entries he
      have hnamed := (hfiles.named _ hmem).2 name (by simp)
      exact ⟨hnamed.1, hnamed.2, hfiles.item?_of_mem hmem⟩
    unfold sourcesBelow at h
    rw [List.mem_append] at h
    rcases h with h | h
    · obtain ⟨⟨name, item⟩, he, h⟩ := List.mem_filterMap.mp h
      obtain ⟨hproper, -, hitem⟩ := hentry he
      cases item with
      | folder => cases h
      | file c =>
        dsimp only at h
        split at h
        · next hext =>
          cases h
          refine ⟨[], name, ⟨?_, hproper, ⟨c, ?_⟩, getLast?_of_extension hext⟩, ?_⟩
          · rw [List.append_nil]
            exact hd
          · rw [List.append_nil]
            exact hitem
          · exact join_of_plain hd.plain hproper.slash
        · cases h
    · obtain ⟨⟨name, item⟩, he, h⟩ := List.mem_flatMap.mp h
      obtain ⟨hproper, hlong, hitem⟩ := hentry he
      cases item with
      | file c => cases h
      | folder =>
        dsimp only at h
        rw [join_of_plain hd.plain hproper.slash] at h
        obtain ⟨way, x, hsource, hfile⟩ := ih (hd.child hproper hlong hitem) h
        refine ⟨name :: way, x, ?_, hfile⟩
        rw [List.append_assoc] at hsource
        exact hsource

section

variable {dir : String} {q : Place} {way way' : List String} {x x' : String}
  (h : IsSource files (below dir way) (q ++ way) x) (h' : IsSource files (below dir way') (q ++ way') x')

include h h' in
/-- Two files have one list exactly if they differ in nothing but the extension. -/
theorem listName_eq_iff :
    listName (below dir way ++ "/" ++ x) = listName (below dir way' ++ "/" ++ x') ↔
      way = way' ∧ stem x = stem x' := by
  rw [listName_slash _ h.proper.slash, listName_slash _ h'.proper.slash]
  constructor
  · intro heq
    obtain ⟨hshelf, -⟩ := slash_inj (plain_slash _ (proper_shelf h.proper.slash).plain)
      (plain_slash _ (proper_shelf h'.proper.slash).plain) (proper_list h.proper.slash).slash
      (proper_list h'.proper.slash).slash heq
    obtain ⟨hdir, hname⟩ := slash_inj h.leads.plain h'.leads.plain (proper_shelf h.proper.slash).slash
      (proper_shelf h'.proper.slash).slash hshelf
    have hleads := h'.leads
    rw [← hdir] at hleads
    exact ⟨List.append_cancel_left (h.leads.unique hleads), (String.append_left_inj _).mp hname⟩
  · rintro ⟨rfl, hstem⟩
    rw [hstem]

theorem leaf_eq_iff {ending : String} :
    leaf (q ++ way) x ending = leaf (q ++ way') x' ending ↔ way = way' ∧ stem x = stem x' := by
  unfold leaf shelf
  constructor
  · intro heq
    obtain ⟨hshelf, -⟩ := List.append_inj' heq (by simp)
    obtain ⟨hplace, hname⟩ := List.append_inj' hshelf (by simp)
    exact ⟨List.append_cancel_left hplace, (String.append_left_inj _).mp (List.singleton_inj.mp hname)⟩
  · rintro ⟨rfl, hstem⟩
    rw [hstem]

end

/-! ## One file after the other -/

/-- The files that a run takes up: all up to the first that does not go well. -/
def attempted (tools : Toolchain) (settings : Value) (request : Request) (project : Option String) :
    Files → List String → List String
  | _, [] => []
  | files, file :: rest =>
    match (processFile tools settings request project file).on files with
    | (.ok _, d) => file :: attempted tools settings request project d.files rest
    | (.error _, _) => [file]

def listsUnder (tools : Toolchain) (settings : Value) (files : Files) (name : String)
    (targets : List String) : List String :=
  (targets.filter fun file => listName file = name).filterMap (list? tools settings files)

variable {tools : Toolchain} {settings : Value} {request : Request} {project : Option String}

theorem listsUnder_nil (name : String) : listsUnder tools settings files name [] = [] := rfl

theorem listsUnder_cons (name file : String) (targets : List String) :
    listsUnder tools settings files name (file :: targets) =
      (if listName file = name then (list? tools settings files file).toList else []) ++
        listsUnder tools settings files name targets := by
  unfold listsUnder
  by_cases h : listName file = name
  · rw [List.filter_cons_of_pos (by simp [h]), if_pos h]
    cases h : list? tools settings files file with
    | none => rw [List.filterMap_cons_none h]; rfl
    | some text => rw [List.filterMap_cons_some h]; rfl
  · rw [List.filter_cons_of_neg (by simp [h]), if_neg h]
    rfl

/-- What is found in the end at the place of a list: the text that came last, unless a folder stands
there. -/
structure Ends (q : Place) (x : String) (text? : Option String) (now next : Files) : Prop where
  keeps : Keeps now next
  without : text? = none → ∀ c, next.item? (leaf q x ".logic.lisp") = some (.file c) ↔
    now.item? (leaf q x ".logic.lisp") = some (.file c)
  written : ∀ text, text? = some text → next.item? (shelf q x) = some .folder ∧
    (next.item? (leaf q x ".logic.lisp") = some .folder ∨
      next.item? (leaf q x ".logic.lisp") = some (.file (Utf8.encode text)))

theorem Ends.refl (q : Place) (x : String) (now : Files) : Ends q x none now now where
  keeps := .refl now
  without _ _ := Iff.rfl
  written _ h := by cases h

theorem Ends.trans {q : Place} {x : String} {first second : Option String} {now mid next : Files}
    (h : Ends q x first now mid) (h' : Ends q x second mid next) :
    Ends q x (second.or first) now next := by
  refine ⟨h.keeps.trans h'.keeps, ?_, ?_⟩
  · intro hnone c
    obtain ⟨hsecond, hfirst⟩ := Option.or_eq_none_iff.mp hnone
    exact (h'.without hsecond c).trans (h.without hfirst c)
  · intro text htext
    cases hsecond : second with
    | some last =>
      rw [hsecond] at htext
      cases htext
      exact h'.written text hsecond
    | none =>
      rw [hsecond, Option.none_or] at htext
      obtain ⟨hshelf, hleaf⟩ := h.written text htext
      refine ⟨h'.keeps.folders _ hshelf, ?_⟩
      rcases hleaf with hleaf | hleaf
      · exact .inl (h'.keeps.folders _ hleaf)
      · exact .inr ((h'.without hsecond _).mpr hleaf)

section

variable {dir : String} {q : Place} {way : List String} {x : String}
  (ht : IsSource files (below dir way) (q ++ way) x)
  (hroom : Room files (below dir way) (q ++ way) x ".logic.lisp")
  (hlist : request.format ≠ .picture) (hfocus : request.focus = none)

include ht hroom hlist hfocus

/-- One step: a file changes the list of another only if their lists have one name. -/
theorem ends_processFile {way' : List String} {x' : String} {d : Desk}
    (hu : IsSource files (below dir way') (q ++ way') x') (hev : Evolves ['p', 't'] files d.files) :
    let file := below dir way' ++ "/" ++ x'
    let r := (processFile tools settings request project file).onDesk d
    Evolves ['p', 't'] files r.2.files ∧
      Ends (q ++ way) x
        (if listName file = listName (below dir way ++ "/" ++ x) then list? tools settings files file
          else none) d.files r.2.files := by
  intro file r
  obtain ⟨hlists, -⟩ := @IsSource.lists_processFile (q ++ way') (below dir way') x' d tools request
    project files settings hu hlist hfocus hev
  refine ⟨hev.trans hlists.evolves, ?_⟩
  split
  · next hsame =>
    obtain ⟨rfl, hstem⟩ := (listName_eq_iff hu ht).mp hsame
    have hleaf : leaf (q ++ way') x ".logic.lisp" = leaf (q ++ way') x' ".logic.lisp" :=
      (leaf_eq_iff.mpr ⟨rfl, hstem⟩).symm
    have hshelf : shelf (q ++ way') x = shelf (q ++ way') x' := by
      unfold shelf
      rw [hstem]
    have hroom' : Room files (below dir way') (q ++ way') x' ".logic.lisp" := by
      obtain ⟨hfits, hfits', hne⟩ := hroom
      rw [← hstem] at hfits hfits'
      rw [hshelf] at hne
      exact ⟨hfits, hfits', hne⟩
    refine ⟨hlists.evolves.keeps, ?_, ?_⟩
    · rw [hleaf]
      exact fun hnone c => hlists.stays _ c (tip_list _ _) fun _ => hnone
    · rw [hleaf, hshelf]
      exact fun text htext => hlists.written text htext (hev.room.mpr hroom')
  · next hother =>
    have hleaf : leaf (q ++ way) x ".logic.lisp" ≠ leaf (q ++ way') x' ".logic.lisp" := by
      intro heq
      obtain ⟨hway, hstem⟩ := leaf_eq_iff.mp heq
      exact hother ((listName_eq_iff hu ht).mpr ⟨hway.symm, hstem.symm⟩)
    exact ⟨hlists.evolves.keeps, fun _ c => hlists.stays _ c (tip_list _ _) fun e => absurd e hleaf,
      fun text h => by cases h⟩

/-- A whole run: the last list under a name is found there, unless a folder is. -/
theorem ends_forM {targets : List String} {d : Desk}
    (htargets : ∀ file ∈ targets, LiesBelow files dir q file)
    (hev : Evolves ['p', 't'] files d.files) :
    Ends (q ++ way) x
      (listsUnder tools settings files (listName (below dir way ++ "/" ++ x))
        (attempted tools settings request project d.files targets)).getLast?
      d.files ((targets.forM (processFile tools settings request project)).onDesk d).2.files := by
  induction targets generalizing d with
  | nil => exact .refl _ _ _
  | cons file targets ih =>
    obtain ⟨way', x', hu, hfile⟩ := htargets file List.mem_cons_self
    obtain ⟨hev', hends⟩ := @ends_processFile files tools settings request project dir q way x ht hroom
      hlist hfocus way' x' d hu hev
    rw [← hfile] at hev' hends
    change Ends _ _ _ _ ((processFile tools settings request project file >>= fun _ =>
      targets.forM (processFile tools settings request project)).onDesk d).2.files
    have hlast : (if listName file = listName (below dir way ++ "/" ++ x) then
        (list? tools settings files file).toList else []).getLast? =
        if listName file = listName (below dir way ++ "/" ++ x) then list? tools settings files file
          else none := by
      split
      · cases list? tools settings files file <;> rfl
      · rfl
    -- the run so far has left the same files as one that starts afresh
    obtain ⟨hresult, hleft⟩ := @byFiles_processFile tools request project settings file d
      ⟨d.files, "", "", [], 0⟩ rfl
    change _ = ((processFile tools settings request project file).on d.files).1 at hresult
    change _ = ((processFile tools settings request project file).on d.files).2.files at hleft
    rw [onDesk_bind, attempted]
    generalize (processFile tools settings request project file).onDesk d = r at hev' hends hresult hleft
    generalize (processFile tools settings request project file).on d.files = r' at hresult hleft
    rcases r with ⟨stop | _, d₁⟩
    · rcases r' with ⟨stop' | _, d₁'⟩
      · rw [listsUnder_cons, listsUnder_nil, List.append_nil, hlast]
        exact hends
      · cases hresult
    · rcases r' with ⟨stop' | _, d₁'⟩
      · cases hresult
      · dsimp only at hleft hends hev' ⊢
        rw [listsUnder_cons, List.getLast?_append, hlast, ← hleft]
        exact hends.trans (ih (fun file h => htargets file (List.mem_cons_of_mem _ h)) hev')

end

/-! ## Whole runs -/

def request? (args : List String) : Option Request := (commandLine.read args).toOption.map .ofGiven

def settingsOf (tools : Toolchain) (files : Files) : Value :=
  (Settings.load tools.home files Settings.defaultName).2

variable {args : List String} {d : Desk}

theorem onDesk_reread {cell : Settings.Cell} (hcell : cell.shared = some settings)
    (given : CommandLine.Given) : (reread tools settings cell given).onDesk d = (.ok settings, d) := by
  unfold reread
  dsimp only
  split
  · rfl
  · rw [onDesk_bind_of_ok onDesk_files, Settings.Cell.read_of_shared hcell]
    dsimp only
    rw [onDesk_bind_of_ok (onDesk_forM_say []), printed_nil, Desk.plus_empty]
    rfl

theorem on_run {given : CommandLine.Given} (hread : commandLine.read args = .ok given) :
    (run tools args).on files = (process tools (settingsOf tools files) (.ofGiven given)).onDesk
      ⟨files, printed (Settings.load tools.home files Settings.defaultName).1, "", [], 0⟩ := by
  change (run tools args).onDesk ⟨files, "", "", [], 0⟩ = _
  unfold run
  rw [onDesk_bind_of_ok onDesk_files]
  unfold settingsOf Settings.Cell.read Settings.Cell.fresh
  rcases Settings.load tools.home files Settings.defaultName with ⟨notes, settings⟩
  dsimp only
  rw [onDesk_bind_of_ok (onDesk_forM_say notes), onDesk_bind_of_ok (onDesk_given_ok hread),
    onDesk_bind_of_ok (onDesk_reread rfl given)]
  unfold Desk.plus
  rw [String.empty_append]

theorem exists_given (h : request? args = some request) :
    ∃ given, commandLine.read args = .ok given ∧ Request.ofGiven given = request := by
  obtain ⟨given, hgiven, rfl⟩ := Option.map_eq_some_iff.mp h
  refine ⟨given, ?_, rfl⟩
  cases hread : commandLine.read args with
  | error e => rw [hread] at hgiven; cases hgiven
  | ok g => rw [hread] at hgiven; cases hgiven; rfl

theorem onDesk_process_folder (hunified : request.unified = false)
    (hfolder : d.files.find? (fullName d.files request.path) = some .folder) :
    ∃ text, (process tools settings request).onDesk d =
      ((sources d.files (fullName d.files request.path)).forM
        (processFile tools settings request (some (fullName d.files request.path)))).onDesk (d.plus text) := by
  unfold process
  rw [onDesk_bind_of_ok onDesk_files]
  dsimp only
  rw [hfolder]
  dsimp only
  rw [onDesk_bind_of_ok (onDesk_say _), hunified]
  exact ⟨_, rfl⟩

theorem onDesk_process_file (hfolder : d.files.find? (fullName d.files request.path) ≠ some .folder)
    (hok : ((process tools settings request).onDesk d).1 = .ok ()) :
    (process tools settings request).onDesk d =
      (processFile tools settings request none (fullName d.files request.path)).onDesk d := by
  unfold process at hok ⊢
  rw [onDesk_bind_of_ok onDesk_files] at hok ⊢
  dsimp only at hok ⊢
  cases hitem : d.files.find? (fullName d.files request.path) with
  | none =>
    rw [hitem] at hok
    dsimp only at hok
    rw [onDesk_bind_of_ok (onDesk_say _)] at hok
    cases hok
  | some item =>
    cases item with
    | folder => exact absurd hitem hfolder
    | file c => dsimp only

theorem isAbsolute_join {root : String} (h : isAbsolute root = true) (name : String) :
    isAbsolute (join root name) = true := by
  have happend (t : String) : isAbsolute (root ++ t) = true := by
    unfold isAbsolute at h ⊢
    rw [String.toList_append]
    cases hroot : root.toList with
    | nil => simp [hroot] at h
    | cons c l => simpa [hroot] using h
  unfold join
  split
  · next hname => simp [isAbsolute, hname]
  split
  · exact happend name
  · rw [String.append_assoc]
    exact happend _

/-- A full name that leads to a folder is as plain as that of the working folder. -/
theorem leads_fullName (hfiles : files.WellFormed) {name : String}
    (hfolder : files.find? (fullName files name) = some .folder) :
    ∃ q, files.locate (fullName files name) = .ok q ∧ files.Leads (fullName files name) q := by
  obtain ⟨q, hq, hitem⟩ := find?_eq_some_iff.mp hfolder
  obtain ⟨ps, hps, hfollow⟩ := bind_eq_ok_iff.mp hq
  obtain ⟨habsolute, hform⟩ := normal_of_isAbsolute (isAbsolute_join hfiles.absolute name)
  have hsteps : files.Steps (fullName files name) ps := by
    obtain ⟨⟨⟩, -, hps⟩ := bind_eq_ok_iff.mp hps
    cases hbelow : files.partsBelow (fullName files name) with
    | none => rw [hbelow] at hps; cases hps
    | some rs =>
      rw [hbelow] at hps
      cases hps
      exact steps_of_partsBelow habsolute hbelow
  refine ⟨q, hq, ?_, ⟨ps, hsteps, hfollow⟩, hitem⟩
  -- the top alone does not lie in the working folder
  have hslashes : ∀ s, (∀ c ∈ s.toList, c = '/') → fullName files name ≠ s := by
    intro s hs heq
    obtain ⟨c, hc⟩ := Option.ne_none_iff_exists'.mp hfiles.plain.1
    have hmem : c ∈ s.toList := by
      rw [← heq]
      rcases hsteps with ⟨hroot, -⟩ | ⟨rest, hrest, -⟩
      · rw [hroot]
        exact List.mem_of_getLast? hc
      · rw [hrest, toList_slash]
        exact List.mem_append_left _ (List.mem_of_getLast? hc)
    exact hfiles.plain.2 (by rw [hc, hs c hmem])
  rcases hform with h | h | h
  · exact absurd h (hslashes "/" (by simp))
  · exact absurd h (hslashes "//" (by simp))
  · exact h

/-- Two runs with the same options, neither with a focus nor for an atlas nor for pictures only: one on
a folder, and one, which goes well, on a source file below it. -/
structure Companions (tools : Toolchain) (files : Files) (args alone : List String) (request : Request)
    (file : String) : Prop where
  wellFormed : files.WellFormed
  asked : request? args = some request
  listed : request.format ≠ .picture
  unfocused : request.focus = none
  single : request.unified = false
  folder : files.find? (fullName files request.path) = some .folder
  member : file ∈ sources files (fullName files request.path)
  repeated : ∃ name, request? alone = some { request with path := name } ∧ fullName files name = file
  well : ((run tools alone).on files).1 = .ok ()

section

variable {dir : String} {q : Place} {x : String} {next : Files}

theorem Room.read_listed {text : String} (hroom : Room files dir q x ".logic.lisp")
    (hleads : next.Leads dir q) (hx : '/' ∉ x.toList) (h : Listed q x text next) :
    next.read (listName (dir ++ "/" ++ x)) = .ok (Utf8.encode text) :=
  (read_listName hleads hx).mpr ⟨hroom.shelf_fits.2, h.1, hroom.fits, h.2⟩

theorem Ends.read_written {text : String} (hends : Ends q x (some text) files next)
    (ht : IsSource files dir q x) (hroom : Room files dir q x ".logic.lisp") :
    next.isFolder (listName (dir ++ "/" ++ x)) = true ∨
      next.read (listName (dir ++ "/" ++ x)) = .ok (Utf8.encode text) := by
  obtain ⟨hshelf, hleaf⟩ := hends.written text rfl
  have hleads := hends.keeps.leads ht.leads
  rcases hleaf with hfolder | hfile
  · rw [listName_slash dir ht.proper.slash]
    exact .inl (isFolder_iff.mpr ⟨_, (hleads.locate_grandchild (proper_shelf ht.proper.slash)
      (proper_list ht.proper.slash)).mpr ⟨hroom.shelf_fits.2, hshelf, hroom.fits, rfl⟩, hfolder⟩)
  · exact .inr (hroom.read_listed hleads ht.proper.slash ⟨hshelf, hfile⟩)

theorem Ends.read_without {c : Bytes} (hends : Ends q x none files next) (hfiles : files.WellFormed)
    (ht : IsSource files dir q x) :
    next.read (listName (dir ++ "/" ++ x)) = .ok c ↔ files.read (listName (dir ++ "/" ++ x)) = .ok c := by
  rw [read_listName (hends.keeps.leads ht.leads) ht.proper.slash,
    read_listName ht.leads ht.proper.slash, hends.without rfl c]
  constructor
  · rintro ⟨hlong, -, hfits, hfile⟩
    have hclosed := hfiles.closed _ (WellFormed.mem_of_item? (by simp [leaf]) hfile)
    simp only [leaf, List.dropLast_concat] at hclosed
    exact ⟨hlong, hclosed, hfits, hfile⟩
  · rintro ⟨hlong, hfolder, hfits, hfile⟩
    exact ⟨hlong, hends.keeps.folders _ hfolder, hfits, hfile⟩

end

namespace Companions

variable {alone : List String} {file : String} (h : Companions tools files args alone request file)

include h

/-- The file is a source file below the folder, and so are the others. -/
theorem exists_liesBelow : ∃ q, ∀ other ∈ sources files (fullName files request.path),
    LiesBelow files (fullName files request.path) q other := by
  obtain ⟨q, hq, hleads⟩ := leads_fullName h.wellFormed h.folder
  refine ⟨q, fun other hother => ?_⟩
  unfold sources at hother
  rw [hq] at hother
  exact liesBelow_of_mem h.wellFormed hleads hother

theorem own_list {dir : String} {q : Place} {x : String} (ht : IsSource files dir q x)
    (hfile : file = dir ++ "/" ++ x) :
    ∃ text, list? tools (settingsOf tools files) files file = some text ∧
      Room files dir q x ".logic.lisp" ∧
      ((run tools alone).on files).2.files.read (listName file) = .ok (Utf8.encode text) := by
  obtain ⟨name, halone, hname⟩ := h.repeated
  obtain ⟨given, hread, hgiven⟩ := exists_given halone
  have hwell := h.well
  rw [on_run hread, hgiven] at hwell ⊢
  have hfolder : files.find? (fullName files name) ≠ some .folder := by
    intro hfind
    obtain ⟨p, hp, hitem⟩ := find?_eq_some_iff.mp hfind
    rw [hname, hfile] at hp
    obtain ⟨-, rfl⟩ := (ht.leads.locate_child ht.proper).mp hp
    obtain ⟨c, hc⟩ := ht.item
    rw [hc] at hitem
    cases hitem
  generalize printed (Settings.load tools.home files Settings.defaultName).1 = note at hwell ⊢
  have hprocess := @onDesk_process_file tools (settingsOf tools files) { request with path := name }
    ⟨files, note, "", [], 0⟩ hfolder hwell
  dsimp only at hprocess
  rw [hname, hfile] at hprocess
  rw [hprocess] at hwell ⊢
  rw [hfile]
  obtain ⟨hlists, hok⟩ := @IsSource.lists_processFile q dir x ⟨files, note, "", [], 0⟩ tools
    { request with path := name } none files (settingsOf tools files) ht h.listed h.unfocused (.refl files)
  obtain ⟨text, htext, hroom, hlisted⟩ := hok hwell
  exact ⟨text, htext, hroom,
    hroom.read_listed (hlists.evolves.keeps.leads ht.leads) ht.proper.slash hlisted⟩

theorem ends_run {q : Place} {way : List String} {x : String}
    (hsources : ∀ other ∈ sources files (fullName files request.path),
      LiesBelow files (fullName files request.path) q other)
    (ht : IsSource files (below (fullName files request.path) way) (q ++ way) x)
    (hroom : Room files (below (fullName files request.path) way) (q ++ way) x ".logic.lisp") :
    Ends (q ++ way) x
      (listsUnder tools (settingsOf tools files) files
        (listName (below (fullName files request.path) way ++ "/" ++ x))
        (attempted tools (settingsOf tools files) request (some (fullName files request.path)) files
          (sources files (fullName files request.path)))).getLast?
      files ((run tools args).on files).2.files := by
  obtain ⟨given, hread, hgiven⟩ := exists_given h.asked
  rw [on_run hread, hgiven]
  generalize printed (Settings.load tools.home files Settings.defaultName).1 = note
  obtain ⟨note', hprocess⟩ := @onDesk_process_folder tools (settingsOf tools files) request
    ⟨files, note, "", [], 0⟩ h.single h.folder
  rw [hprocess]
  exact @ends_forM files tools (settingsOf tools files) request _ _ q way x ht hroom h.listed
    h.unfocused _ (Desk.plus ⟨files, note, "", [], 0⟩ note') hsources (.refl files)

end Companions

/-- After a run on a folder, the list of a file is the one that a run on the file alone leaves exactly
if the last list under its name says the same and no folder stands in its place, or if there was none
and the list was there before. Lists come of the files up to the first that does not go well, in the
order in which the folder is listed, and under one name for all files that differ in nothing but the
extension. -/
theorem run_keeps_list_iff {alone : List String} {file : String}
    (h : Companions tools files args alone request file) :
    let settings := settingsOf tools files
    let path := fullName files request.path
    let lists := listsUnder tools settings files (listName file)
      (attempted tools settings request (some path) files (sources files path))
    let after := ((run tools args).on files).2.files
    let own := ((run tools alone).on files).2.files.read (listName file)
    (∃ text, list? tools settings files file = some text ∧ own = .ok (Utf8.encode text)) ∧
      (after.read (listName file) = own ↔
        lists.getLast? = list? tools settings files file ∧ after.isFolder (listName file) = false ∨
          lists = [] ∧ files.read (listName file) = own) := by
  intro settings path lists after own
  obtain ⟨q, hsources⟩ := h.exists_liesBelow
  obtain ⟨way, x, ht, hfile⟩ := hsources file h.member
  obtain ⟨text, htext, hroom, hown⟩ := h.own_list ht hfile
  have hends := h.ends_run hsources ht hroom
  rw [← hfile] at hends
  change Ends (q ++ way) x lists.getLast? files after at hends
  change own = _ at hown
  refine ⟨⟨text, htext, hown⟩, ?_⟩
  rw [hown, htext]
  cases hlast : lists.getLast? with
  | some last =>
    have hnil : lists ≠ [] := by
      intro hnil
      rw [hnil] at hlast
      cases hlast
    rw [hlast] at hends
    have hread := hends.read_written ht hroom
    rw [← hfile] at hread
    rcases hread with hfolder | hread
    · have hunread : after.read (listName file) ≠ .ok (Utf8.encode text) := by
        intro hread
        rw [isFolder_eq_false_of_read hread] at hfolder
        cases hfolder
      simp [hunread, hfolder, hnil]
    · have hfile := isFolder_eq_false_of_read hread
      rw [hread]
      constructor
      · intro heq
        have hsame := congrArg Utf8.decode (Except.ok.inj heq)
        rw [Utf8.decode_encode, Utf8.decode_encode] at hsame
        exact .inl ⟨congrArg some (Except.ok.inj hsame), hfile⟩
      · rintro (⟨heq, -⟩ | ⟨hempty, -⟩)
        · rw [Option.some.inj heq]
        · exact absurd hempty hnil
  | none =>
    rw [hlast] at hends
    have hnil := List.getLast?_eq_none_iff.mp hlast
    rw [hfile, hends.read_without h.wellFormed ht]
    simp [hnil]

def emptyAndShort : Files :=
  ⟨"/w", [(["a.py"], .file []), (["b.py"], .file (Utf8.encode "def g():\n    c()\n"))]⟩

def shortTools : Toolchain where
  parser := ⟨none, fun _ code => if code = [] then .node "module" 0 0 none [] else
    .node "module" 0 17 none [.node "function_definition" 0 16 none
      [.node "identifier" 4 5 (some "name") [], .node "block" 13 16 (some "body") []]]⟩
  dot := .missing
  home := ⟨⟨"/w", []⟩, "/tool", fun _ _ => .ok .null⟩

theorem sources_emptyAndShort :
    sources emptyAndShort (fullName emptyAndShort ".") = ["/w/a.py", "/w/b.py"] := by
  decide +kernel

/-- The run on the folder breaks off with the first file, and the second has no list. -/
theorem shortFunction_unlisted :
    ((run shortTools ["b.py", "--format", "dsl"]).on emptyAndShort).1 = .ok () ∧
      ((run shortTools [".", "--format", "dsl"]).on emptyAndShort).2.files.read (listName "/w/b.py") ≠
        ((run shortTools ["b.py", "--format", "dsl"]).on emptyAndShort).2.files.read (listName "/w/b.py") := by
  have hwell : ((run shortTools ["b.py", "--format", "dsl"]).on emptyAndShort).1 = .ok () :=
    eq_ok_of_isOk (by decide +kernel)
  have h : Companions shortTools emptyAndShort [".", "--format", "dsl"] ["b.py", "--format", "dsl"]
      ⟨".", .lisp, none, none, false⟩ "/w/b.py" := {
    wellFormed := ⟨by decide +kernel, by decide +kernel, by decide +kernel, by decide +kernel,
      by decide +kernel⟩
    asked := rfl
    listed := by decide
    unfocused := rfl
    single := rfl
    folder := by decide +kernel
    member := by
      rw [sources_emptyAndShort]
      decide
    repeated := ⟨"b.py", rfl, by decide +kernel⟩
    well := hwell }
  obtain ⟨⟨text, htext, hown⟩, hiff⟩ := run_keeps_list_iff h
  refine ⟨hwell, mt hiff.mp ?_⟩
  have hlists : listsUnder shortTools (settingsOf shortTools emptyAndShort) emptyAndShort
      (listName "/w/b.py") (attempted shortTools (settingsOf shortTools emptyAndShort)
        ⟨".", .lisp, none, none, false⟩ (some (fullName emptyAndShort ".")) emptyAndShort
        (sources emptyAndShort (fullName emptyAndShort "."))) = [] := by
    rw [sources_emptyAndShort]
    decide +kernel
  have hmissing : (emptyAndShort.read (listName "/w/b.py")).isOk = false := by decide +kernel
  dsimp only
  rw [hlists, htext, hown]
  rintro (⟨heq, -⟩ | ⟨-, heq⟩)
  · cases heq
  · rw [heq] at hmissing
    cases hmissing

end Command

end Workbench.Flow
