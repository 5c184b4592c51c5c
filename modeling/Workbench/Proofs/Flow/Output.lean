import Workbench.Proofs.World.Folders
import Workbench.Flow.Command

/-!
# What is written about a file

The graph of a file is listed in a folder beside it, whose name has lost the extension of the file.
Such folders, lists and pictures are told from each other and from source files by the ends of their
names. What has been written about some files therefore does not change what is found in others. Only
a folder that was made for pictures can be in the way of a list.
-/

namespace Workbench.Flow.Command

open Session Files PathName

/-! ## Where things are written -/

def shelf (q : Place) (x : String) : Place := q ++ [stem x ++ "_logic"]

def leaf (q : Place) (x ending : String) : Place := shelf q x ++ [stem x ++ ending]

def tip (p : Place) : Option Char := p.getLast?.bind (·.toList.getLast?)

variable {q p : Place} {dir x : String}

@[simp] theorem tip_concat (q : Place) (x : String) : tip (q ++ [x]) = x.toList.getLast? := by
  simp [tip]

@[simp] theorem tip_shelf (q : Place) (x : String) : tip (shelf q x) = some 'c' := by
  simp [shelf]

@[simp] theorem tip_list (q : Place) (x : String) : tip (leaf q x ".logic.lisp") = some 'p' := by
  simp [leaf]

@[simp] theorem tip_dot (q : Place) (x : String) : tip (leaf q x ".logic.dot") = some 't' := by
  simp [leaf]

theorem ne_of_tip {p p' : Place} (h : tip p ≠ tip p') : p ≠ p' := fun e => h (congrArg tip e)

theorem proper_stem (hx : '/' ∉ x.toList) {ending : String} {c : Char} (hslash : '/' ∉ ending.toList)
    (hlast : ending.toList.getLast? = some c) (hc : c ≠ '.') : Proper (stem x ++ ending) := by
  refine @proper_of_getLast? _ c ?_ ?_ hc
  · rw [String.toList_append, List.mem_append, not_or]
    exact ⟨slash_not_mem_stem hx, hslash⟩
  · rw [String.toList_append, List.getLast?_append, hlast]
    rfl

theorem proper_shelf (hx : '/' ∉ x.toList) : Proper (stem x ++ "_logic") :=
  @proper_stem x hx _ 'c' (by decide) (by decide) (by decide)

theorem proper_list (hx : '/' ∉ x.toList) : Proper (stem x ++ ".logic.lisp") :=
  @proper_stem x hx _ 'p' (by decide) (by decide) (by decide)

theorem proper_dot (hx : '/' ∉ x.toList) : Proper (stem x ++ ".logic.dot") :=
  @proper_stem x hx _ 't' (by decide) (by decide) (by decide)

theorem outputFolder_slash (dir : String) (hx : '/' ∉ x.toList) :
    outputFolder (dir ++ "/" ++ x) = dir ++ "/" ++ (stem x ++ "_logic") := by
  unfold outputFolder
  rw [withoutExtension_slash dir hx, String.append_assoc]

theorem outputName_slash (dir : String) (hx : '/' ∉ x.toList) {ending : String}
    (hy : '/' ∉ (stem x ++ ending).toList) :
    outputName (dir ++ "/" ++ x) ending = dir ++ "/" ++ (stem x ++ "_logic") ++ "/" ++ (stem x ++ ending) := by
  unfold outputName
  rw [outputFolder_slash dir hx, withoutExtension_slash dir hx, base_slash,
    base_of_not_mem (slash_not_mem_stem hx), join_of_plain (plain_slash dir (proper_shelf hx).plain) hy]

theorem listName_slash (dir : String) (hx : '/' ∉ x.toList) :
    listName (dir ++ "/" ++ x) =
      dir ++ "/" ++ (stem x ++ "_logic") ++ "/" ++ (stem x ++ ".logic.lisp") :=
  outputName_slash dir hx (proper_list hx).slash

theorem read_listName {files : Files} {c : Bytes} (hd : files.Leads dir q) (hx : '/' ∉ x.toList) :
    files.read (listName (dir ++ "/" ++ x)) = .ok c ↔
      byteLength (stem x ++ "_logic") ≤ partLimit ∧ files.item? (shelf q x) = some .folder ∧
      Fits (dir ++ "/" ++ (stem x ++ "_logic")) (stem x ++ ".logic.lisp") ∧
      files.item? (leaf q x ".logic.lisp") = some (.file c) := by
  rw [listName_slash dir hx, read_eq_ok_iff]
  simp only [hd.locate_grandchild (proper_shelf hx) (proper_list hx)]
  constructor
  · rintro ⟨p, ⟨hlong, hfolder, hfits, rfl⟩, hfile⟩
    exact ⟨hlong, hfolder, hfits, hfile⟩
  · rintro ⟨hlong, hfolder, hfits, hfile⟩
    exact ⟨_, ⟨hlong, hfolder, hfits, rfl⟩, hfile⟩

/-! ## How files evolve -/

/-- What a run may have made of the files: new folders, and files whose names end in certain
characters. -/
structure Evolves (tips : List Char) (files now : Files) : Prop where
  keeps : Keeps files now
  contents : ∀ p c, (∀ t ∈ tips, tip p ≠ some t) →
    (now.item? p = some (.file c) ↔ files.item? p = some (.file c))

namespace Evolves

variable {files now next : Files} {tips : List Char}

theorem refl (files : Files) : Evolves tips files files := ⟨.refl files, fun _ _ _ => Iff.rfl⟩

theorem trans (h : Evolves tips files now) (h' : Evolves tips now next) : Evolves tips files next :=
  ⟨h.keeps.trans h'.keeps, fun p c hp => (h'.contents p c hp).trans (h.contents p c hp)⟩

theorem mono {more : List Char} (hsub : tips ⊆ more) (h : Evolves tips files now) :
    Evolves more files now :=
  ⟨h.keeps, fun p c hp => h.contents p c fun t ht => hp t (hsub ht)⟩

theorem of_spares (h : Spares files now) : Evolves tips files now :=
  ⟨h.keeps, fun p c _ => ⟨h.fresh p c, h.items p _⟩⟩

theorem setFile {t : Char} (ht : t ∈ tips) (hp : tip p = some t) (hitem : now.item? p ≠ some .folder)
    (c : Bytes) : Evolves tips now (now.set p (.file c)) := by
  have hne := ne_nil_of_item? hitem
  refine ⟨keeps_set hne hitem _, fun r c' hr => ?_⟩
  have hrp : r ≠ p := by
    rintro rfl
    exact hr t ht hp
  rw [item?_set hne, if_neg hrp]

end Evolves

/-! ## Making the folder -/

variable {d : Desk} {y : String}

/-- A folder is made unless something has its name, and only if the name is not too long. -/
theorem onDesk_ensureFolder (hd : d.files.Leads dir q) (hy : Proper y) (hname : checkName dir = .ok ()) :
    (Fits dir y ∧ d.files.item? (q ++ [y]) ≠ none ∧ (ensureFolder (dir ++ "/" ++ y)).onDesk d = (.ok (), d)) ∨
    (Fits dir y ∧ d.files.item? (q ++ [y]) = none ∧ (ensureFolder (dir ++ "/" ++ y)).onDesk d =
      (.ok (), { d with files := d.files.set (q ++ [y]) .folder })) ∨
    (¬Fits dir y ∧ ∃ stop, (ensureFolder (dir ++ "/" ++ y)).onDesk d = (.error stop, d)) := by
  unfold ensureFolder
  rw [onDesk_bind_of_ok onDesk_files]
  by_cases hhas : d.files.has (dir ++ "/" ++ y) = true
  · obtain ⟨hfits, hitem⟩ := (hd.has_child hy).mp hhas
    exact .inl ⟨hfits, hitem, by simp [hhas]⟩
  · have hmissing : Fits dir y → d.files.item? (q ++ [y]) = none := by
      intro hfits
      by_contra hitem
      exact hhas ((hd.has_child hy).mpr ⟨hfits, hitem⟩)
    right
    rw [if_neg hhas, onDesk_change, hd.makeAll_child hy hname, Change.on_step]
    cases hmade : d.files.makeFolder (dir ++ "/" ++ y) with
    | ok files' =>
      obtain ⟨hfits, hitem, rfl⟩ := (hd.makeFolder_child hy).mp hmade
      exact .inl ⟨hfits, hitem, rfl⟩
    | error e =>
      refine .inr ⟨fun hfits => ?_, _, rfl⟩
      rw [(hd.makeFolder_child hy).mpr ⟨hfits, hmissing hfits, rfl⟩] at hmade
      cases hmade

/-! ## Writing into the folder -/

/-- There can be a folder for what is written about a file, and something in it. -/
structure Room (files : Files) (dir : String) (q : Place) (x ending : String) : Prop where
  shelf_fits : Fits dir (stem x ++ "_logic")
  fits : Fits (dir ++ "/" ++ (stem x ++ "_logic")) (stem x ++ ending)
  -- no file stands in the way of the folder
  shelf_ne : ∀ c, files.item? (shelf q x) ≠ some (.file c)

theorem Evolves.room {files now : Files} {ending : String} (h : Evolves ['p', 't'] files now) :
    Room now dir q x ending ↔ Room files dir q x ending := by
  have hshelf (c : Bytes) : now.item? (shelf q x) = some (.file c) ↔
      files.item? (shelf q x) = some (.file c) :=
    h.contents _ c (by simp)
  constructor
  · rintro ⟨hfits, hfits', hne⟩
    exact ⟨hfits, hfits', fun c hc => hne c ((hshelf c).mpr hc)⟩
  · rintro ⟨hfits, hfits', hne⟩
    exact ⟨hfits, hfits', fun c hc => hne c ((hshelf c).mp hc)⟩

theorem Room.shelf_eq {files : Files} {ending : String} (h : Room files dir q x ending)
    (hitem : files.item? (shelf q x) ≠ none) : files.item? (shelf q x) = some .folder := by
  cases hi : files.item? (shelf q x) with
  | none => exact absurd hi hitem
  | some item =>
    cases item with
    | folder => rfl
    | file c => exact absurd hi (h.shelf_ne c)

/-- Where the folder for output is made already, writing a file either goes well and changes that file
only, or changes nothing. -/
theorem onDesk_write {ending : String} (hd : d.files.Leads dir q) (hx : '/' ∉ x.toList)
    (hy : Proper (stem x ++ ending)) (hshelf : Fits dir (stem x ++ "_logic"))
    (hitem : d.files.item? (shelf q x) ≠ none) (c : Bytes) :
    let r := (change Fault.file (.step (·.write (outputName (dir ++ "/" ++ x) ending) c))).onDesk d
    (Room d.files dir q x ending ∧ d.files.item? (leaf q x ending) ≠ some .folder ∧
      r = (.ok (), { d with files := d.files.set (leaf q x ending) (.file c) })) ∨
    ((Room d.files dir q x ending → d.files.item? (leaf q x ending) = some .folder) ∧
      ∃ stop, r = (.error stop, d)) := by
  intro r
  have hr : r = _ := onDesk_change Fault.file _
  rw [Change.on_step, outputName_slash dir hx hy.slash] at hr
  cases hwrite : d.files.write (dir ++ "/" ++ (stem x ++ "_logic") ++ "/" ++ (stem x ++ ending)) c with
  | ok files' =>
    obtain ⟨-, hfolder, hfits, hne, rfl⟩ := (hd.write_grandchild (proper_shelf hx) hy).mp hwrite
    refine .inl ⟨⟨hshelf, hfits, ?_⟩, hne, ?_⟩
    · intro c'
      unfold shelf
      rw [hfolder]
      simp
    · rw [hr, hwrite]
      rfl
  | error e =>
    refine .inr ⟨fun hroom => ?_, _, by rw [hr, hwrite]; rfl⟩
    by_contra hne
    rw [(hd.write_grandchild (proper_shelf hx) hy).mpr
      ⟨hshelf.2, hroom.shelf_eq hitem, hroom.fits, hne, rfl⟩] at hwrite
    cases hwrite

/-- What a step of a run does about the list of a file: if there is a text and room for it, it is
written, or a folder stands in its place; other lists are left alone. -/
structure Lists (dir : String) (q : Place) (x : String) (text? : Option String)
    (now next : Files) : Prop where
  evolves : Evolves ['p', 't'] now next
  stays : ∀ p c, tip p = some 'p' → (p = leaf q x ".logic.lisp" → text? = none) →
    (next.item? p = some (.file c) ↔ now.item? p = some (.file c))
  written : ∀ text, text? = some text → Room now dir q x ".logic.lisp" →
    next.item? (shelf q x) = some .folder ∧
      (next.item? (leaf q x ".logic.lisp") = some .folder ∨
        next.item? (leaf q x ".logic.lisp") = some (.file (Utf8.encode text)))

def Listed (q : Place) (x text : String) (files : Files) : Prop :=
  files.item? (shelf q x) = some .folder ∧
    files.item? (leaf q x ".logic.lisp") = some (.file (Utf8.encode text))

section

variable {now mid next : Files} {text? : Option String}

theorem Lists.of_evolves (h : Evolves ['t'] now mid) (h' : Lists dir q x text? mid next) :
    Lists dir q x text? now next where
  evolves := (h.mono (by simp)).trans h'.evolves
  stays p c hp htext := (h'.stays p c hp htext).trans (h.contents p c (by simp [hp]))
  written text htext hroom := h'.written text htext ((h.mono (by simp)).room.mpr hroom)

theorem Lists.evolve (h : Lists dir q x text? now mid) (h' : Evolves ['t'] mid next) :
    Lists dir q x text? now next where
  evolves := h.evolves.trans (h'.mono (by simp))
  stays p c hp htext := (h'.contents p c (by simp [hp])).trans (h.stays p c hp htext)
  written text htext hroom := by
    obtain ⟨hshelf, hleaf⟩ := h.written text htext hroom
    refine ⟨h'.keeps.folders _ hshelf, ?_⟩
    rcases hleaf with hleaf | hleaf
    · exact .inl (h'.keeps.folders _ hleaf)
    · exact .inr ((h'.contents _ _ (by simp)).mpr hleaf)

theorem Listed.evolve {text : String} (h : Listed q x text now) (h' : Evolves ['t'] now next) :
    Listed q x text next :=
  ⟨h'.keeps.folders _ h.1, (h'.contents _ _ (by simp)).mpr h.2⟩

/-- Nothing was done: there is no text, no room for it, or a folder in its place. -/
theorem lists_self (h : ∀ text, text? = some text → Room now dir q x ".logic.lisp" →
      now.item? (shelf q x) = some .folder ∧ now.item? (leaf q x ".logic.lisp") = some .folder) :
    Lists dir q x text? now now where
  evolves := .refl now
  stays _ _ _ _ := Iff.rfl
  written text htext hroom := by
    obtain ⟨hshelf, hleaf⟩ := h text htext hroom
    exact ⟨hshelf, .inl hleaf⟩

end

section

variable (hd : d.files.Leads dir q) (hx : '/' ∉ x.toList)

include hd hx

theorem lists_of_shelf (hfits : Fits dir (stem x ++ "_logic"))
    (hitem : d.files.item? (shelf q x) ≠ none) (graph : Graph) :
    let r := (listGraph (dir ++ "/" ++ x) graph).onDesk d
    Lists dir q x graph.lisp.toOption d.files r.2.files ∧
      (r.1 = .ok () → ∃ text, graph.lisp = .ok text ∧ Room d.files dir q x ".logic.lisp" ∧
        Listed q x text r.2.files) := by
  intro r
  have hr : r = _ := onDesk_bind _ _ d
  cases htext : graph.lisp with
  | error f =>
    rw [htext, onDesk_demand_error] at hr
    rw [hr]
    exact ⟨lists_self (by simp [Except.toOption]), by simp⟩
  | ok text =>
    rw [htext, onDesk_demand_ok] at hr
    dsimp only at hr
    rw [onDesk_bind] at hr
    unfold listName at hr
    rcases onDesk_write hd hx (proper_list hx) hfits hitem (Utf8.encode text) with
      ⟨hroom, hleaf, hw⟩ | ⟨hfolder, stop, hw⟩
    · rw [hw] at hr
      dsimp only at hr
      rw [onDesk_say] at hr
      rw [hr]
      have hne := ne_nil_of_item? hleaf
      have hshelf : shelf q x ≠ leaf q x ".logic.lisp" := ne_of_tip (by simp)
      have hlisted : Listed q x text (d.files.set (leaf q x ".logic.lisp") (.file (Utf8.encode text))) := by
        unfold Listed
        rw [item?_set hne, item?_set hne, if_neg hshelf, if_pos rfl]
        exact ⟨hroom.shelf_eq hitem, rfl⟩
      refine ⟨⟨.setFile (by simp) (tip_list q x) hleaf _, ?_, ?_⟩, fun _ => ⟨text, rfl, hroom, hlisted⟩⟩
      · intro p c hp hother
        have hpl : p ≠ leaf q x ".logic.lisp" := fun e => by cases hother e
        rw [Desk.files_plus, item?_set hne, if_neg hpl]
      · rintro _ ⟨⟩ -
        exact ⟨hlisted.1, .inr hlisted.2⟩
    · rw [hw] at hr
      rw [hr]
      exact ⟨lists_self fun _ _ hroom => ⟨hroom.shelf_eq hitem, hfolder hroom⟩, by simp⟩

theorem lists_listGraph (hname : checkName dir = .ok ()) (graph : Graph) :
    let r := (ensureFolder (outputFolder (dir ++ "/" ++ x)) >>= fun _ =>
      listGraph (dir ++ "/" ++ x) graph).onDesk d
    Lists dir q x graph.lisp.toOption d.files r.2.files ∧
      (r.1 = .ok () → ∃ text, graph.lisp = .ok text ∧ Room d.files dir q x ".logic.lisp" ∧
        Listed q x text r.2.files) := by
  intro r
  have hr : r = _ := onDesk_bind _ _ d
  rw [outputFolder_slash dir hx] at hr
  rcases onDesk_ensureFolder hd (proper_shelf hx) hname with
    ⟨hfits, hitem, hmade⟩ | ⟨hfits, hitem, hmade⟩ | ⟨hfits, stop, hmade⟩
  · rw [hmade] at hr
    rw [hr]
    exact lists_of_shelf hd hx hfits hitem graph
  · rw [hmade] at hr
    rw [hr]
    have hspares : Spares d.files (d.files.set (shelf q x) .folder) := spares_setFolder hitem
    have hne : shelf q x ≠ [] := by simp [shelf]
    have hshelf : (d.files.set (shelf q x) .folder).item? (shelf q x) ≠ none := by
      rw [item?_set hne, if_pos rfl]
      simp
    obtain ⟨hlists, hok⟩ := @lists_of_shelf q dir x { d with files := d.files.set (shelf q x) .folder }
      (hspares.keeps.leads hd) hx hfits hshelf graph
    refine ⟨.of_evolves (.of_spares hspares) hlists, fun h => ?_⟩
    obtain ⟨text, htext, hroom, hlisted⟩ := hok h
    exact ⟨text, htext, (Evolves.of_spares hspares).room.mp hroom, hlisted⟩
  · rw [hmade] at hr
    rw [hr]
    exact ⟨lists_self fun _ _ hroom => absurd hroom.shelf_fits hfits, by simp⟩

end

/-! ## Pictures -/

variable {tools : Toolchain} {request : Request} {project : Option String}

theorem spares_ensureFolder (name : String) : Spares d.files ((ensureFolder name).onDesk d).2.files := by
  unfold ensureFolder
  rw [onDesk_bind_of_ok onDesk_files]
  split
  · exact .refl _
  · have hadds : Spares d.files ((Change.makeAll false name).on d.files).2 :=
      Change.adds_makeAll false name d.files
    rw [onDesk_change]
    generalize (Change.makeAll false name).on d.files = r at hadds
    exact hadds

theorem onDesk_writeText_of_half {name text : String} (h : Half.occursIn text = true) :
    ∃ stop, (writeText name text).onDesk d =
      (.error stop, ((change Fault.file (.step (·.write name []))).onDesk d).2) := by
  unfold writeText Change.writeText
  rw [if_pos h, onDesk_change, onDesk_change, Change.on_bind]
  rcases (Change.step (·.write name [])).on d.files with ⟨e | a, files'⟩
  · exact ⟨_, rfl⟩
  · exact ⟨_, rfl⟩

theorem onDesk_makePicture (dot : DotReply) (input output : String) (d : Desk) :
    ∃ note, (makePicture dot input output).onDesk d = (.ok (), d.plus note) := by
  cases dot <;> exact ⟨_, onDesk_say _⟩

section

variable (hd : d.files.Leads dir q) (hx : '/' ∉ x.toList) (hfits : Fits dir (stem x ++ "_logic"))
  (hitem : d.files.item? (shelf q x) = some .folder)

include hd hx hfits hitem

theorem evolves_writeText (text : String) :
    Evolves ['t'] d.files
      ((writeText (outputName (dir ++ "/" ++ x) ".logic.dot") text).onDesk d).2.files := by
  have hwrite (c : Bytes) : Evolves ['t'] d.files ((change Fault.file
      (.step (·.write (outputName (dir ++ "/" ++ x) ".logic.dot") c))).onDesk d).2.files := by
    rcases onDesk_write hd hx (proper_dot hx) hfits (by rw [hitem]; simp) c with
      ⟨-, hleaf, hw⟩ | ⟨-, stop, hw⟩
    · rw [hw]
      exact .setFile (by simp) (tip_dot q x) hleaf c
    · rw [hw]
      exact .refl _
  cases hhalf : Half.occursIn text with
  | true =>
    obtain ⟨stop, hr⟩ := @onDesk_writeText_of_half d (outputName (dir ++ "/" ++ x) ".logic.dot") text hhalf
    rw [hr]
    dsimp only
    exact hwrite []
  | false =>
    have hplain : writeText (outputName (dir ++ "/" ++ x) ".logic.dot") text =
        change Fault.file (.step (·.write (outputName (dir ++ "/" ++ x) ".logic.dot") (Utf8.encode text))) := by
      unfold writeText Change.writeText
      rw [hhalf]
      rfl
    rw [hplain]
    exact hwrite (Utf8.encode text)

/-- For the picture of a graph folders are made if need be, and a file is written in the folder for
output. -/
theorem evolves_depictGraph (graph : Graph) :
    Evolves ['t'] d.files ((depictGraph tools request project (dir ++ "/" ++ x) graph).onDesk d).2.files := by
  unfold depictGraph
  cases graph.dot with
  | error f =>
    rw [onDesk_bind, onDesk_demand_error]
    exact .refl _
  | ok text =>
    rw [onDesk_bind_of_ok (onDesk_demand_ok _ text)]
    dsimp only
    -- what follows, once there is a folder for the picture
    have hrest : ∀ {d₁ : Desk} (output : String), Spares d.files d₁.files →
        Evolves ['t'] d.files ((writeText (outputName (dir ++ "/" ++ x) ".logic.dot") text >>= fun _ =>
          makePicture tools.dot (outputName (dir ++ "/" ++ x) ".logic.dot") output).onDesk d₁).2.files := by
      intro d₁ output hmore
      have hwritten := @evolves_writeText q dir x d₁ (hmore.keeps.leads hd) hx hfits
        (hmore.items _ _ hitem) text
      refine (Evolves.of_spares hmore).trans ?_
      rw [onDesk_bind]
      generalize (writeText (outputName (dir ++ "/" ++ x) ".logic.dot") text).onDesk d₁ = r at hwritten
      rcases r with ⟨stop | _, d₂⟩
      · exact hwritten
      · obtain ⟨note, hnote⟩ := onDesk_makePicture tools.dot
          (outputName (dir ++ "/" ++ x) ".logic.dot") output d₂
        dsimp only
        rw [hnote]
        exact hwritten
    split
    · have hmore := @spares_ensureFolder d
        (pictureFolder request project (dir ++ "/" ++ x) (outputFolder (dir ++ "/" ++ x)))
      rw [onDesk_bind]
      generalize (ensureFolder _).onDesk d = r at hmore
      rcases r with ⟨stop | _, d₁⟩
      · exact .of_spares hmore
      · exact hrest _ hmore
    · exact hrest _ (.refl _)

end

/-! ## Single files -/

def graph? (tools : Toolchain) (settings : Value) (files : Files) (file : String) : Option Graph :=
  match (tools.parser.load files file).2 with
  | .error _ => none
  | .ok source => (functions source.dialect source.tree).head?.bind fun t =>
      (graphOf source.dialect source.code (some settings) t).toOption

/-- The text that lists the graph of a file. -/
def list? (tools : Toolchain) (settings : Value) (files : Files) (file : String) : Option String :=
  (graph? tools settings files file).bind fun g => g.lisp.toOption

def deliver (tools : Toolchain) (request : Request) (project : Option String) (file : String)
    (graph : Graph) : Session Fault Unit := do
  ensureFolder (outputFolder file)
  listGraph file graph
  if request.format ≠ .lisp then depictGraph tools request project file graph

theorem deliver_eq (file : String) (graph : Graph) :
    deliver tools request project file graph =
      (ensureFolder (outputFolder file) >>= fun _ => listGraph file graph) >>= fun _ =>
        if request.format ≠ .lisp then depictGraph tools request project file graph else pure () := by
  rw [bind_assoc]
  rfl

theorem exists_read_of_graph? {settings : Value} {files : Files} {file : String} {g : Graph}
    (h : graph? tools settings files file = some g) : ∃ c, files.read file = .ok c := by
  unfold graph? Parser.load at h
  cases hread : files.read file with
  | ok c => exact ⟨c, rfl⟩
  | error f =>
    rw [hread] at h
    split at h
    · cases h
    next source hsource =>
    split at hsource
    · cases hsource
    split at hsource
    · cases hsource
    · cases hsource

/-- The graph of a file depends on nothing but the content of the file. -/
theorem graph?_congr {settings : Value} {files now : Files} {file : String}
    (h : ∀ c, now.read file = .ok c ↔ files.read file = .ok c) :
    graph? tools settings now file = graph? tools settings files file := by
  have hnone : ∀ {files : Files}, (¬∃ c, files.read file = .ok c) →
      graph? tools settings files file = none := by
    intro files hunread
    by_contra hsome
    obtain ⟨g, hg⟩ := Option.ne_none_iff_exists'.mp hsome
    exact hunread (exists_read_of_graph? hg)
  by_cases hread : ∃ c, files.read file = .ok c
  · obtain ⟨c, hc⟩ := hread
    unfold graph? Parser.load
    rw [hc, (h c).mpr hc]
  · rw [hnone hread, hnone]
    simpa only [h] using hread

theorem onDesk_processFile {settings : Value} {file : String} (hlist : request.format ≠ .picture)
    (hfocus : request.focus = none) :
    match graph? tools settings d.files file with
    | none => ∃ stop text, (processFile tools settings request project file).onDesk d =
        (.error stop, d.plus text)
    | some g => ∃ text, (processFile tools settings request project file).onDesk d =
        (deliver tools request project file g).onDesk (d.plus text) := by
  unfold processFile
  rw [onDesk_bind_of_ok (onDesk_say _), onDesk_bind_of_ok onDesk_files]
  unfold graph?
  rw [Desk.files_plus]
  rcases tools.parser.load d.files file with ⟨notes, fault | source⟩
  · dsimp only
    rw [onDesk_bind_of_ok (onDesk_forM_say notes), onDesk_bind_of_ok (onDesk_say _),
      onDesk_bind_of_ok (onDesk_say _)]
    simp
  · dsimp only
    rw [onDesk_bind_of_ok (onDesk_forM_say notes)]
    cases functions source.dialect source.tree with
    | nil =>
      simp only [List.isEmpty_nil, if_true]
      rw [onDesk_bind_of_ok (onDesk_say _), onDesk_bind, onDesk_exit]
      simp
    | cons t ts =>
      have hchoose : (choose request source (t :: ts)).onDesk
          = fun d => (.ok t, d.plus "[*] No focus specified, analyzing first function found.\n") := by
        funext d
        unfold choose
        rw [hfocus]
        exact onDesk_bind_of_ok (onDesk_say _)
      simp only [List.isEmpty_cons, Bool.false_eq_true, if_false, List.head?_cons, Option.bind_some]
      rw [onDesk_bind_of_ok (congrFun hchoose _)]
      cases graphOf source.dialect source.code (some settings) t with
      | error f =>
        rw [onDesk_bind, onDesk_demand_error]
        simp [Except.toOption]
      | ok g =>
        rw [onDesk_bind_of_ok (onDesk_demand_ok _ g)]
        simp only [Except.toOption, Desk.plus_plus, if_pos hlist]
        exact ⟨_, rfl⟩

theorem lists_deliver (hd : d.files.Leads dir q) (hx : '/' ∉ x.toList) (hname : checkName dir = .ok ())
    (graph : Graph) :
    let r := (deliver tools request project (dir ++ "/" ++ x) graph).onDesk d
    Lists dir q x graph.lisp.toOption d.files r.2.files ∧
      (r.1 = .ok () → ∃ text, graph.lisp = .ok text ∧ Room d.files dir q x ".logic.lisp" ∧
        Listed q x text r.2.files) := by
  intro r
  have hr : r = (deliver tools request project (dir ++ "/" ++ x) graph).onDesk d := rfl
  rw [deliver_eq, onDesk_bind] at hr
  obtain ⟨hlists, hok⟩ := lists_listGraph hd hx hname graph
  generalize (ensureFolder (outputFolder (dir ++ "/" ++ x)) >>= fun _ =>
    listGraph (dir ++ "/" ++ x) graph).onDesk d = r₁ at hr hlists hok
  rcases r₁ with ⟨stop | _, d₁⟩
  · rw [hr]
    exact ⟨hlists, by simp⟩
  dsimp only at hr hlists hok
  obtain ⟨text, htext, hroom, hlisted⟩ := hok rfl
  have hev : Evolves ['t'] d₁.files r.2.files := by
    rw [hr]
    split
    · exact evolves_depictGraph (hlists.evolves.keeps.leads hd) hx hroom.shelf_fits hlisted.1 graph
    · exact .refl _
  exact ⟨hlists.evolve hev, fun _ => ⟨text, htext, hroom, hlisted.evolve hev⟩⟩

/-- What is needed to know of a source file: a name leads to its folder, and its own name does not look
like that of anything written. -/
structure IsSource (files : Files) (dir : String) (q : Place) (x : String) : Prop where
  leads : files.Leads dir q
  proper : Proper x
  item : ∃ c, files.item? (q ++ [x]) = some (.file c)
  ending : x.toList.getLast? = some 's' ∨ x.toList.getLast? = some 'y'

namespace IsSource

variable {files : Files} {settings : Value} (h : IsSource files dir q x)

include h

theorem graph?_eq {now : Files} (hev : Evolves ['p', 't'] files now) :
    graph? tools settings now (dir ++ "/" ++ x) = graph? tools settings files (dir ++ "/" ++ x) := by
  refine graph?_congr fun c => ?_
  rw [(hev.keeps.leads h.leads).read_child h.proper, h.leads.read_child h.proper, hev.contents]
  rcases h.ending with he | he <;> simp [he]

theorem checkName {g : Graph} (hg : graph? tools settings files (dir ++ "/" ++ x) = some g) :
    checkName dir = .ok () := by
  obtain ⟨c, hc⟩ := exists_read_of_graph? hg
  exact ((h.leads.read_child h.proper).mp hc).1.folder h.leads.plain.ne_empty

/-- What a run lists about a file does not depend on what it wrote about files before. -/
theorem lists_processFile (hlist : request.format ≠ .picture) (hfocus : request.focus = none)
    (hev : Evolves ['p', 't'] files d.files) :
    let r := (processFile tools settings request project (dir ++ "/" ++ x)).onDesk d
    Lists dir q x (list? tools settings files (dir ++ "/" ++ x)) d.files r.2.files ∧
      (r.1 = .ok () → ∃ text, list? tools settings files (dir ++ "/" ++ x) = some text ∧
        Room files dir q x ".logic.lisp" ∧ Listed q x text r.2.files) := by
  have hprocess := @onDesk_processFile d tools request project settings (dir ++ "/" ++ x) hlist hfocus
  rw [h.graph?_eq hev] at hprocess
  unfold list?
  cases hg : graph? tools settings files (dir ++ "/" ++ x) with
  | none =>
    rw [hg] at hprocess
    obtain ⟨stop, text, hr⟩ := hprocess
    rw [hr]
    exact ⟨lists_self (by simp), by simp⟩
  | some g =>
    rw [hg] at hprocess
    obtain ⟨text, hr⟩ := hprocess
    rw [hr]
    obtain ⟨hlists, hok⟩ := @lists_deliver q dir x (d.plus text) tools request project
      (hev.keeps.leads h.leads) h.proper.slash (h.checkName hg) g
    refine ⟨hlists, fun hrun => ?_⟩
    obtain ⟨text, htext, hroom, hlisted⟩ := hok hrun
    exact ⟨text, by simp [htext, Except.toOption], hev.room.mp hroom, hlisted⟩

end IsSource

/-! ## What a run goes by -/

theorem byFiles_ensureFolder (name : String) : (ensureFolder name).ByFiles := by
  refine .bind .files fun files => ?_
  split
  · exact .pure ()
  · exact .change _ _

theorem byFiles_choose (source : Source) (ts : List Tree) : (choose request source ts).ByFiles := by
  induction ts with
  | nil =>
    unfold choose
    cases request.focus with
    | some name => exact .bind (.say _) fun _ => .exit 1
    | none => exact .bind (.say _) fun _ => .exit 0
  | cons t ts ih =>
    unfold choose
    cases request.focus with
    | none => exact .bind (.say _) fun _ => .pure t
    | some name =>
      cases t.child? "name" with
      | none => exact .fail _
      | some n =>
        dsimp only
        split
        · exact .fail _
        · split
          · exact .pure t
          · exact ih

theorem byFiles_depictGraph (file : String) (graph : Graph) :
    (depictGraph tools request project file graph).ByFiles := by
  refine .bind (.demand _ _) fun text => ?_
  have hpicture (output : String) : (writeText (outputName file ".logic.dot") text >>= fun _ =>
      makePicture tools.dot (outputName file ".logic.dot") output).ByFiles := by
    refine .bind (.change _ _) fun _ => ?_
    cases tools.dot <;> exact .say _
  dsimp only
  split
  · exact .bind (byFiles_ensureFolder _) fun _ => hpicture _
  · exact hpicture _

theorem byFiles_processFile (settings : Value) (file : String) :
    (processFile tools settings request project file).ByFiles := by
  refine .bind (.say _) fun _ => .bind .files fun files => ?_
  rcases tools.parser.load files file with ⟨notes, fault | source⟩
  · exact .bind (.forM .say) fun _ => .bind (.say _) fun _ => .bind (.say _) fun _ => .exit 1
  · have hdraw : (choose request source (functions source.dialect source.tree) >>= fun target => do
        let graph ← demand .draw (graphOf source.dialect source.code (some settings) target)
        ensureFolder (outputFolder file)
        if request.format ≠ .picture then listGraph file graph
        if request.format ≠ .lisp then depictGraph tools request project file graph
          : Session Fault Unit).ByFiles := by
      refine .bind (byFiles_choose _ _) fun target => .bind (.demand _ _) fun graph =>
        .bind (byFiles_ensureFolder _) fun _ => ?_
      have hpicture : (if request.format ≠ .lisp then depictGraph tools request project file graph
          else pure ()).ByFiles := by
        split
        · exact byFiles_depictGraph _ _
        · exact .pure ()
      dsimp only
      split
      · exact .bind (.bind (.demand _ _) fun _ => .bind (.change _ _) fun _ => .say _) fun _ => hpicture
      · exact hpicture
    refine .bind (.forM .say) fun _ => ?_
    dsimp only
    split
    · exact .bind (.say _) fun _ => .bind (.exit 0) fun _ => hdraw
    · exact hdraw

end Workbench.Flow.Command
