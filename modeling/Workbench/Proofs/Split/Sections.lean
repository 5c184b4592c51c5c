import Mathlib.Data.List.SplitBy
import Mathlib.Tactic.Common
import Workbench.Split.Sections

/-!
# How lines are cut

Sections and pieces are never empty, and one after the other they are the lines that were cut. Sections
are the only way to cut lines before those that open an item. Pieces keep to their size. Sections keep
to a size exactly if no stretch of lines longer than that goes by without an item being opened behind
its first line.
-/

namespace Workbench.Split

variable {o : Opening} {lines : List String}

/-! ## Sections -/

theorem flatten_sections (o : Opening) (lines : List String) : (sections o lines).flatten = lines :=
  List.flatten_splitBy _ lines

theorem ne_nil_of_mem_sections {p : List String} (h : p ∈ sections o lines) : p ≠ [] :=
  List.ne_nil_of_mem_splitBy h

theorem mem_tail_of_isChain {α : Type} {P : α → Prop} {l : List α} (h : l.IsChain fun _ b => P b)
    {b : α} (hb : b ∈ l.tail) : P b := by
  induction l with
  | nil => cases hb
  | cons a l ih =>
    cases l with
    | nil => cases hb
    | cons c l =>
      rw [List.isChain_cons_cons] at h
      cases hb with
      | head => exact h.1
      | tail _ hb => exact ih h.2 hb

theorem not_matches_of_mem_section {p : List String} (h : p ∈ sections o lines) {l : String}
    (hl : l ∈ p.tail) : o.matches l = false := by
  have hchain := List.isChain_of_mem_splitBy h
  have := mem_tail_of_isChain (P := fun l => (!o.matches l) = true) hchain hl
  simpa using this

theorem opens_of_mem_tail_sections {p : List String} (h : p ∈ (sections o lines).tail) :
    ∃ l r, p = l :: r ∧ o.matches l = true := by
  have hchain : (sections o lines).IsChain fun _ b => ∃ l r, b = l :: r ∧ o.matches l = true := by
    refine (List.isChain_getLast_head_splitBy _ lines).imp fun a b hab => ?_
    obtain ⟨_, hb, hab⟩ := hab
    cases b with
    | nil => exact absurd rfl hb
    | cons l r => exact ⟨l, r, rfl, by simpa using hab⟩
  exact mem_tail_of_isChain hchain h

/-! ## The only cut -/

/-- The lines in parts that are not empty, cut before the lines of a sort: every part but the first
begins with such a line, and behind the first line of a part there is none. -/
structure CutAt (opens : String → Prop) (lines : List String) (parts : List (List String)) :
    Prop where
  flatten : parts.flatten = lines
  ne_nil : ∀ p ∈ parts, p ≠ []
  opened : ∀ p ∈ parts.tail, ∃ l r, p = l :: r ∧ opens l
  quiet : ∀ p ∈ parts, ∀ l ∈ p.tail, ¬ opens l

theorem isChain_of_forall_mem_tail {α : Type} {P : α → Prop} {l : List α}
    (h : ∀ b ∈ l.tail, P b) : l.IsChain fun _ b => P b := by
  induction l with
  | nil => exact .nil
  | cons a l ih =>
    cases l with
    | nil => exact .singleton a
    | cons b l =>
      rw [List.isChain_cons_cons]
      exact ⟨h b List.mem_cons_self, ih fun c hc => h c (List.mem_cons_of_mem b hc)⟩

/-- Neighbouring parts: neither is empty, and the second one begins with an opening. -/
theorem CutAt.isChain {parts : List (List String)} (h : CutAt (o.matches ·) lines parts) :
    parts.IsChain fun a b => ∃ (_ : a ≠ []) (hb : b ≠ []), o.matches (b.head hb) = true := by
  refine (isChain_of_forall_mem_tail h.opened).imp_of_mem_imp fun a b ha _ hb => ?_
  obtain ⟨l, r, rfl, hl⟩ := hb
  exact ⟨h.ne_nil a ha, List.cons_ne_nil l r, hl⟩

theorem cutAt_iff_eq_sections {parts : List (List String)} :
    CutAt (o.matches ·) lines parts ↔ parts = sections o lines := by
  constructor
  · intro h
    refine (List.splitBy_eq_iff.2 ⟨h.flatten.symm, fun hnil => h.ne_nil [] hnil rfl, ?_, ?_⟩).symm
    · intro p hp
      refine isChain_of_forall_mem_tail fun l hl => ?_
      simpa using h.quiet p hp l hl
    · simpa using h.isChain
  · rintro rfl
    refine ⟨flatten_sections o lines, fun p hp => ne_nil_of_mem_sections hp,
      fun p hp => opens_of_mem_tail_sections hp, fun p hp l hl => ?_⟩
    simp [not_matches_of_mem_section hp hl]

def Begins (strip : List Char → List Char) (beginnings : List String) (line : String) : Prop :=
  ∃ b ∈ beginnings, b.toList <+: strip line.toList

theorem Opening.matches_iff {line : String} :
    o.matches line = true ↔ Begins o.strip o.beginnings line := by
  simp [Opening.matches, Begins]

theorem cutAt_begins_iff (o : Opening) {parts : List (List String)} :
    CutAt (Begins o.strip o.beginnings) lines parts ↔ parts = sections o lines := by
  have h : Begins o.strip o.beginnings = fun l => o.matches l = true :=
    funext fun l => propext Opening.matches_iff.symm
  rw [h]
  exact cutAt_iff_eq_sections

/-- The sections of any lines are the one way to cut them at the lines that open an item, in each of
the four languages, and in Rust whatever beginnings are given. -/
theorem sections_only_cut (lines : List String) (parts : List (List String)) :
    (∀ beginnings, CutAt (Begins Text.strip beginnings) lines parts ↔
      parts = sections (.rust beginnings) lines) ∧
    (CutAt (Begins Text.stripLeft ["class ", "def "]) lines parts ↔
      parts = sections (.of .python) lines) ∧
    (CutAt (Begins Text.stripLeft ["class ", "struct ", "namespace ", "template <"]) lines parts ↔
      parts = sections (.of .cpp) lines) ∧
    (CutAt (Begins Text.stripLeft ["export ", "function ", "class "]) lines parts ↔
      parts = sections (.of .js) lines) :=
  ⟨fun beginnings => cutAt_begins_iff (.rust beginnings), cutAt_begins_iff (.of .python),
    cutAt_begins_iff (.of .cpp), cutAt_begins_iff (.of .js)⟩

-- an opening in the first line, two in a row, and one in the last line
example : sections (.of .python) ["class A:", "  def f():", "  def g():", "    x", "def h():"] =
    [["class A:"], ["  def f():"], ["  def g():", "    x"], ["def h():"]] := by decide

/-! ## Openings within reach -/

/-- Behind every line that has `reach` more lines after it, one of these opens an item. -/
def OpensWithin (o : Opening) (reach : Nat) (lines : List String) : Prop :=
  ∀ i, i + reach < lines.length →
    ∃ j l, i < j ∧ j ≤ i + reach ∧ lines[j]? = some l ∧ o.matches l = true

theorem opensWithin_flatten {reach : Nat} {parts : List (List String)}
    (hlength : ∀ p ∈ parts, p.length ≤ reach)
    (hopens : ∀ p ∈ parts.tail, ∃ l r, p = l :: r ∧ o.matches l = true) :
    OpensWithin o reach parts.flatten := by
  induction parts with
  | nil => intro i hi; simp at hi
  | cons p parts ih =>
    intro i hi
    have hp : p.length ≤ reach := hlength p List.mem_cons_self
    rw [List.flatten_cons, List.length_append] at hi
    by_cases hip : i < p.length
    · -- the part that comes next begins within reach
      cases parts with
      | nil => simp at hi; omega
      | cons q parts =>
        obtain ⟨l, r, rfl, hl⟩ := hopens q List.mem_cons_self
        exact ⟨p.length, l, hip, by omega, by simp, hl⟩
    · have hrest := ih (fun q hq => hlength q (List.mem_cons_of_mem p hq))
        (fun q hq => hopens q (List.mem_of_mem_tail hq))
      obtain ⟨j, l, hij, hji, hj, hl⟩ := hrest (i - p.length) (by omega)
      refine ⟨p.length + j, l, by omega, by omega, ?_, hl⟩
      rw [List.flatten_cons, List.getElem?_append_right (by omega), Nat.add_sub_cancel_left, hj]

theorem length_le_of_opensWithin {reach : Nat} {parts : List (List String)} {p : List String}
    (h : OpensWithin o reach parts.flatten) (hp : p ∈ parts)
    (hquiet : ∀ l ∈ p.tail, o.matches l = false) : p.length ≤ reach := by
  obtain ⟨before, after, rfl⟩ := List.append_of_mem hp
  by_contra hlong
  obtain ⟨j, l, hij, hji, hj, hl⟩ := h before.flatten.length (by simp; omega)
  -- the line that opens an item lies in the part, and not at its start
  obtain ⟨k, rfl⟩ : ∃ k, j = before.flatten.length + (k + 1) :=
    ⟨j - before.flatten.length - 1, by omega⟩
  have hk : p.tail[k]? = some l := by
    rw [List.getElem?_tail, ← hj, List.flatten_append, List.flatten_cons,
      List.getElem?_append_right (by omega), Nat.add_sub_cancel_left,
      List.getElem?_append_left (by omega)]
  rw [hquiet l (List.mem_of_getElem? hk)] at hl
  cases hl

theorem sections_within_iff {size : Nat} :
    (∀ p ∈ sections o lines, p.length ≤ size) ↔ OpensWithin o size lines := by
  constructor
  · intro h
    have := opensWithin_flatten h fun p hp => opens_of_mem_tail_sections hp
    rwa [flatten_sections] at this
  · intro h p hp
    rw [← flatten_sections o lines] at h
    exact length_le_of_opensWithin h hp fun l hl => not_matches_of_mem_section hp hl

theorem length_sections_eq_one_iff (hlines : lines ≠ []) :
    (sections o lines).length = 1 ↔ ∀ l ∈ lines.tail, o.matches l = false := by
  have hflat := flatten_sections o lines
  cases hs : sections o lines with
  | nil => rw [hs] at hflat; exact absurd hflat.symm hlines
  | cons p rest =>
    have hp : p ∈ sections o lines := by rw [hs]; exact List.mem_cons_self
    cases rest with
    | nil =>
      rw [hs] at hflat
      simp only [List.flatten_cons, List.flatten_nil, List.append_nil] at hflat
      refine ⟨fun _ l hl => not_matches_of_mem_section hp ?_, fun _ => rfl⟩
      rwa [hflat]
    | cons q rest =>
      have hq : q ∈ (sections o lines).tail := by rw [hs]; exact List.mem_cons_self
      obtain ⟨l, r, rfl, hl⟩ := opens_of_mem_tail_sections hq
      refine ⟨fun h => by simp at h, fun h => ?_⟩
      have hmem : l ∈ lines.tail := by
        rw [← hflat, hs, List.flatten_cons, List.tail_append_of_ne_nil (ne_nil_of_mem_sections hp)]
        simp
      rw [h l hmem] at hl
      cases hl

/-! ## Pieces -/

variable {α : Type} {size : Nat}

theorem flatten_pieces (hsize : 0 < size) (l : List α) : (pieces size l).flatten = l := by
  fun_induction pieces size l with
  | case1 => rfl
  | case2 a r h => omega
  | case3 a r h ih =>
    obtain ⟨n, rfl⟩ : ∃ n, size = n + 1 := ⟨size - 1, by omega⟩
    rw [Nat.add_sub_cancel] at ih
    simp [ih]

theorem ne_nil_of_mem_pieces {l p : List α} (h : p ∈ pieces size l) : p ≠ [] := by
  fun_induction pieces size l with
  | case1 => cases h
  | case2 a r => cases h
  | case3 a r hsize ih =>
    cases h with
    | head => simp [hsize]
    | tail _ h => exact ih h

theorem length_le_of_mem_pieces {l p : List α} (h : p ∈ pieces size l) : p.length ≤ size := by
  fun_induction pieces size l with
  | case1 => cases h
  | case2 a r => cases h
  | case3 a r hsize ih =>
    cases h with
    | head => exact List.length_take_le _ _
    | tail _ h => exact ih h

theorem two_le_length_pieces {l : List α} (hsize : 0 < size) (hl : size < l.length) :
    2 ≤ (pieces size l).length := by
  have hflat := flatten_pieces hsize l
  cases hp : pieces size l with
  | nil => rw [hp] at hflat; simp [← hflat] at hl
  | cons p rest =>
    cases rest with
    | nil =>
      have : p.length ≤ size := length_le_of_mem_pieces (hp ▸ List.mem_cons_self)
      rw [hp] at hflat
      simp only [List.flatten_cons, List.flatten_nil, List.append_nil] at hflat
      rw [← hflat] at hl
      omega
    | cons q rest => simp

/-! ## Parts -/

def cut (o : Opening) (size : Nat) (lines : List String) : List (List String) :=
  if (sections o lines).length = 1 then pieces size lines else sections o lines

theorem parts_eq_cut {limit : Int} (h : 1 ≤ limit) (o : Opening) (lines : List String) :
    parts o limit lines = .ok (cut o limit.toNat lines) := by
  unfold parts cut piecesFor
  simp only [if_neg (show ¬limit = 0 by omega), if_neg (show ¬limit < 0 by omega)]
  split <;> rfl

theorem flatten_cut (hsize : 0 < size) (o : Opening) (lines : List String) :
    (cut o size lines).flatten = lines := by
  unfold cut
  split
  · exact flatten_pieces hsize lines
  · exact flatten_sections o lines

theorem ne_nil_of_mem_cut {p : List String} (h : p ∈ cut o size lines) : p ≠ [] := by
  unfold cut at h
  split at h
  · exact ne_nil_of_mem_pieces h
  · exact ne_nil_of_mem_sections h

theorem two_le_length_cut (hsize : 0 < size) (hlines : size < lines.length) :
    2 ≤ (cut o size lines).length := by
  unfold cut
  split
  · exact two_le_length_pieces hsize hlines
  · have hsome : sections o lines ≠ [] := by
      intro h
      have := flatten_sections o lines
      rw [h] at this
      simp [← this] at hlines
    have := List.length_pos_of_ne_nil hsome
    omega

/-- All parts keep to the size exactly if the lines were cut into pieces, or openings are close
enough to each other. -/
theorem cut_within_iff (hlines : lines ≠ []) :
    (∀ p ∈ cut o size lines, p.length ≤ size) ↔
      (∀ l ∈ lines.tail, o.matches l = false) ∨ OpensWithin o size lines := by
  rw [← length_sections_eq_one_iff hlines, ← sections_within_iff]
  unfold cut
  by_cases h : (sections o lines).length = 1
  · simp only [h, if_true, true_or, iff_true]
    exact fun p hp => length_le_of_mem_pieces hp
  · simp only [h, if_false, false_or]

end Workbench.Split
