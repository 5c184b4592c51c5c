import Mathlib.Data.List.DropRight
import Mathlib.Logic.Function.Iterate
import Workbench.Proofs.Extraction.Tags

/-!
# What cleaning leaves

Every pass of cleaning cuts out what it finds, once and from left to right. What stands on both sides
of a cut comes together, and may make up something that this pass or one before it was to take out.
So a second cleaning changes the text exactly if such a thing was left, and only cleaning again and
again comes to an end with nothing left.
-/

namespace Workbench

namespace Text

variable {α : Type} {p : α → Bool} {s : List α}

theorem stripBy_sublist (p : α → Bool) (s : List α) : (stripBy p s).Sublist s := by
  unfold stripBy
  have hend : ((s.dropWhile p).reverse.dropWhile p).reverse.Sublist (s.dropWhile p) := by
    have h := (List.dropWhile_sublist p : ((s.dropWhile p).reverse.dropWhile p).Sublist _).reverse
    rwa [List.reverse_reverse] at h
  exact hend.trans (List.dropWhile_sublist p)

theorem stripBy_stripBy (p : α → Bool) (s : List α) : stripBy p (stripBy p s) = stripBy p s := by
  have hstart : (stripBy p s).dropWhile p = stripBy p s := by
    have hhead := List.head?_dropWhile_not p s
    obtain ⟨r, hr⟩ : stripBy p s <+: s.dropWhile p := List.rdropWhile_prefix p _
    cases hstrip : stripBy p s with
    | nil => rfl
    | cons c t =>
      rw [hstrip] at hr
      rw [← hr] at hhead
      exact List.dropWhile_cons_of_neg (by simpa using hhead)
  rw [stripBy, hstart, stripBy, List.reverse_reverse, List.dropWhile_idempotent]

end Text

namespace Extraction

open Pattern

variable {s t u : List Char} {before : Option Char} {w after : List Char}

/-! ## What is taken out -/

def Blank (s : List Char) : Prop := ∀ c ∈ s, isBlank c = true

def IsLine (l s : List Char) : Prop :=
  ∃ a b, s = a ++ (l ++ b) ∧ '\n' ∉ l ∧ (∀ c ∈ a.getLast?, c = '\n') ∧ ∀ c ∈ b.head?, c = '\n'

/-- A line of the text is a heading of references, with blanks around it at most. -/
def HasHeading (s : List Char) : Prop :=
  ∃ l, IsLine l s ∧ ∃ title ∈ ["references", "bibliography"], ∃ x u y, l = x ++ (u ++ y) ∧
    Blank x ∧ Spelled title u ∧ Blank y

def HasImage (s : List Char) : Prop :=
  ∃ title target, '\n' ∉ title ∧ '\n' ∉ target ∧
    "![".toList ++ (title ++ ("](".toList ++ (target ++ ")".toList))) <:+: s

/-- There is a line of a table of contents: four points or more, and then a number, with which the
line ends. Blanks may stand around the number, and lines that are blank. -/
def HasContentsLine (s : List Char) : Prop :=
  ∃ a n x number y b, s = a ++ (List.replicate n '.' ++ (x ++ (number ++ (y ++ b)))) ∧ 4 ≤ n ∧
    Blank x ∧ number ≠ [] ∧ (∀ c ∈ number, isDecimalDigit c = true) ∧ Blank y ∧
    ∀ c ∈ b.head?, c = '\n'

theorem not_newline_iff : (∀ c ∈ u, (c != '\n') = true) ↔ '\n' ∉ u := by
  simp only [bne_iff_ne]
  exact ⟨fun h hc => h _ hc rfl, fun h c hc he => h (he ▸ hc)⟩

theorem occurs_images_iff : Occurs images s ↔ HasImage s := by
  unfold Occurs HasImage
  simp only [images, List.mem_singleton, exists_eq_left, List.append_assoc, List.cons_append,
    List.nil_append, takes_literal_append, Takes, takes_literal, not_newline_iff]
  constructor
  · rintro ⟨a, _, b, rfl, _, rfl, title, _, rfl, htitle, _, rfl, target, _, rfl, htarget, rfl⟩
    exact ⟨title, target, htitle, htarget, a, b, by simp⟩
  · rintro ⟨title, target, htitle, htarget, a, b, rfl⟩
    exact ⟨a, _, b, List.append_assoc .., _, rfl, title, _, rfl, htitle, _, rfl, target, _, rfl,
      htarget, rfl⟩

/-! ## Places in lines -/

theorem all_newline_iff {o : Option Char} : o.all (· == '\n') = true ↔ ∀ c ∈ o, c = '\n' := by
  cases o <;> simp

theorem behind_none (a : List Char) : behind none a = a.getLast? := Option.or_none

theorem exists_firstLine (s : List Char) :
    ∃ l b, s = l ++ b ∧ '\n' ∉ l ∧ ∀ c ∈ b.head?, c = '\n' := by
  by_cases hs : '\n' ∈ s
  · obtain ⟨l, b, rfl, hl⟩ := List.eq_append_cons_of_mem hs
    exact ⟨l, '\n' :: b, rfl, hl, by simp⟩
  · exact ⟨s, [], by simp, hs, by simp⟩

theorem exists_lastLine (s : List Char) :
    ∃ a l, s = a ++ l ∧ '\n' ∉ l ∧ ∀ c ∈ a.getLast?, c = '\n' := by
  obtain ⟨l, b, hs, hl, hb⟩ := exists_firstLine s.reverse
  refine ⟨b.reverse, l.reverse, ?_, by simpa using hl, by simpa using hb⟩
  rw [← List.reverse_append, ← hs, List.reverse_reverse]

theorem getLast?_append_cases {a x : List Char} (ha : ∀ c ∈ a.getLast?, c = '\n')
    (hx : ∀ c ∈ x.getLast?, c = '\n') : ∀ c ∈ (a ++ x).getLast?, c = '\n' := by
  rw [List.getLast?_append]
  cases h : x.getLast? with
  | none => simpa using ha
  | some c => simpa [h] using hx

theorem head?_append_cases {y b : List Char} (hy : ∀ c ∈ y.head?, c = '\n')
    (hb : ∀ c ∈ b.head?, c = '\n') : ∀ c ∈ (y ++ b).head?, c = '\n' := by
  cases y with
  | nil => exact hb
  | cons c y => simpa using hy

/-! ## Headings and contents -/

theorem takes_references : (∃ p ∈ references, Takes p before w after) ↔
    before.all (· == '\n') = true ∧ ∃ title ∈ ["references", "bibliography"], ∃ x u y b,
      w = x ++ (u ++ (y ++ b)) ∧ Blank x ∧ Spelled title u ∧ Blank y ∧ after = [] ∧
      ∀ c ∈ b.head?, c = '\n' := by
  simp only [references, List.mem_map, exists_exists_and_eq_and, blanks, List.append_assoc,
    List.cons_append, List.nil_append, Takes, takes_anyCase_append, all_newline_iff]
  constructor
  · rintro ⟨title, htitle, hbefore, x, _, rfl, hx, u, _, rfl, hu, y, b, rfl, hy, hb, rfl, -⟩
    exact ⟨hbefore, title, htitle, x, u, y, b, rfl, hx, hu, hy, rfl, by simpa using hb⟩
  · rintro ⟨hbefore, title, htitle, x, u, y, b, rfl, hx, hu, hy, rfl, hb⟩
    exact ⟨title, htitle, hbefore, x, _, rfl, hx, u, _, rfl, hu, y, b, rfl, hy, by simpa using hb,
      rfl, trivial⟩

theorem newline_not_mem_title {title : String} (htitle : title ∈ ["references", "bibliography"])
    (hu : Spelled title u) : '\n' ∉ u :=
  hu.not_mem (List.all_eq_true.1 (show ["references", "bibliography"].all
    (fun title => title.toList.all fun a => !isLetter a '\n') = true from rfl) title htitle)

theorem occurs_references_iff : Occurs references s ↔ HasHeading s := by
  constructor
  · rintro ⟨a, w, b', rfl, htakes⟩
    obtain ⟨ha, title, htitle, x, u, y, b, rfl, hx, hu, hy, rfl, hb⟩ := takes_references.1 htakes
    rw [behind_none, all_newline_iff] at ha
    -- blank lines on either side are not part of the line
    obtain ⟨x₁, x₂, rfl, hx₂, hx₁⟩ := exists_lastLine x
    obtain ⟨y₁, y₂, rfl, hy₁, hy₂⟩ := exists_firstLine y
    refine ⟨x₂ ++ (u ++ y₁), ⟨a ++ x₁, y₂ ++ b, by simp, ?_, getLast?_append_cases ha hx₁,
      head?_append_cases hy₂ hb⟩, title, htitle, x₂, u, y₁, rfl, ?_, hu, ?_⟩
    · simp [hx₂, hy₁, newline_not_mem_title htitle hu]
    · exact fun c hc => hx c (List.mem_append_right _ hc)
    · exact fun c hc => hy c (List.mem_append_left _ hc)
  · rintro ⟨_, ⟨a, b, rfl, -, ha, hb⟩, title, htitle, x, u, y, rfl, hx, hu, hy⟩
    refine ⟨a, x ++ (u ++ (y ++ b)), [], by simp, takes_references.2 ⟨?_, title, htitle, x, u, y, b,
      rfl, hx, hu, hy, rfl, hb⟩⟩
    rw [behind_none, all_newline_iff]
    exact ha

theorem takes_contentsLines : (∃ p ∈ contentsLines, Takes p before w after) ↔
    before.all (· == '\n') = true ∧ ∃ f n x number y,
      w = f ++ (List.replicate n '.' ++ (x ++ (number ++ y))) ∧ '\n' ∉ f ∧ 4 ≤ n ∧ Blank x ∧
      number ≠ [] ∧ (∀ c ∈ number, isDecimalDigit c = true) ∧ Blank y ∧
      ∀ c ∈ after.head?, c = '\n' := by
  simp only [contentsLines, List.mem_singleton, exists_eq_left, anything, blanks, several,
    List.append_assoc, List.cons_append, List.nil_append, Takes, takes_literal_append,
    all_newline_iff, not_newline_iff]
  constructor
  · rintro ⟨hbefore, f, _, rfl, hf, _, rfl, dots, _, rfl, hdots, x, _, rfl, hx, d, _, rfl, hd, ds, _, rfl,
      hds, y, _, rfl, hy, hafter, rfl⟩
    have hpoints : "....".toList ++ dots = List.replicate (dots.length + 4) '.' := by
      have hdots : dots = List.replicate dots.length '.' :=
        List.eq_replicate_of_mem fun c hc => by simpa using hdots c hc
      rw [hdots, List.length_replicate]
      rfl
    refine ⟨hbefore, f, dots.length + 4, x, d :: ds, y, ?_, hf, by omega, hx, by simp, ?_, hy, hafter⟩
    · rw [← hpoints]
      simp
    · exact List.forall_mem_cons.2 ⟨hd, hds⟩
  · rintro ⟨hbefore, f, n, x, number, y, rfl, hf, hn, hx, hne, hnumber, hy, hafter⟩
    obtain ⟨n, rfl⟩ : ∃ k, n = k + 4 := ⟨n - 4, by omega⟩
    obtain ⟨d, ds, rfl⟩ := List.exists_cons_of_ne_nil hne
    rw [List.forall_mem_cons] at hnumber
    refine ⟨hbefore, f, _, rfl, hf, List.replicate n '.' ++ (x ++ d :: (ds ++ y)), rfl,
      List.replicate n '.', _, rfl, fun c hc => ?_, x, _, rfl, hx, d, _, rfl, hnumber.1, ds, _, rfl,
      hnumber.2, y, [], by simp, hy, hafter, rfl⟩
    simp [List.eq_of_mem_replicate hc]

theorem occurs_contentsLines_iff : Occurs contentsLines s ↔ HasContentsLine s := by
  constructor
  · rintro ⟨a, w, b, rfl, htakes⟩
    obtain ⟨-, f, n, x, number, y, rfl, -, hn, hx, hne, hnumber, hy, hb⟩ :=
      takes_contentsLines.1 htakes
    exact ⟨a ++ f, n, x, number, y, b, by simp, hn, hx, hne, hnumber, hy, hb⟩
  · rintro ⟨a, n, x, number, y, b, rfl, hn, hx, hne, hnumber, hy, hb⟩
    obtain ⟨a', f, rfl, hf, ha'⟩ := exists_lastLine a
    refine ⟨a', f ++ (List.replicate n '.' ++ (x ++ (number ++ y))), b, by simp,
      takes_contentsLines.2 ⟨?_, f, n, x, number, y, rfl, hf, hn, hx, hne, hnumber, hy, hb⟩⟩
    rw [behind_none, all_newline_iff]
    exact ha'

/-! ## Cleaning again -/

/-- Nothing is left in the text of what cleaning takes out. -/
structure Settled (s : List Char) : Prop where
  heading : ¬HasHeading s
  image : ¬HasImage s
  openingTag : ¬HasOpeningTag s
  closingTag : ¬HasClosingTag s
  contentsLine : ¬HasContentsLine s

theorem settled_iff : Settled s ↔ ∀ ps ∈ passes, ¬Occurs ps s := by
  simp only [passes, List.forall_mem_cons, List.not_mem_nil, occurs_references_iff, occurs_images_iff,
    occurs_openingTags_iff, occurs_closingTags_iff, occurs_contentsLines_iff]
  constructor
  · exact fun h => ⟨h.heading, h.image, h.openingTag, h.closingTag, h.contentsLine, by simp⟩
  · rintro ⟨hheading, himage, hopening, hclosing, hcontents, -⟩
    exact ⟨hheading, himage, hopening, hclosing, hcontents⟩

theorem tangible_passes : ∀ ps ∈ passes, Tangible ps :=
  fun ps hps => tangible_of_all (List.all_eq_true.1
    (show passes.all (fun ps => ps.all (·.any isOne)) = true from rfl) ps hps)

instance : Decidable (Settled s) :=
  decidable_of_iff (passes.foldl (fun s ps => erase ps s) s = s) <| by
    rw [foldl_erase_eq_self_iff tangible_passes, settled_iff]

theorem clean_sublist (s : List Char) : (clean s).Sublist s :=
  (Text.stripBy_sublist isBlank _).trans (foldl_erase_sublist tangible_passes s)

theorem strip_clean (s : List Char) : Text.strip (clean s) = clean s :=
  Text.stripBy_stripBy isBlank _

theorem clean_eq_self_iff : clean s = s ↔ Text.strip s = s ∧ Settled s := by
  rw [settled_iff, ← foldl_erase_eq_self_iff tangible_passes]
  constructor
  · intro h
    have hpasses : passes.foldl (fun s ps => erase ps s) s = s := by
      refine (foldl_erase_sublist tangible_passes s).antisymm ?_
      have hstrip := Text.stripBy_sublist isBlank (passes.foldl (fun s ps => erase ps s) s)
      rwa [show Text.stripBy isBlank (passes.foldl (fun s ps => erase ps s) s) = s from h] at hstrip
    refine ⟨?_, hpasses⟩
    rw [clean, hpasses] at h
    exact h
  · rintro ⟨hstrip, hpasses⟩
    rw [clean, hpasses, hstrip]

theorem exists_iterate_clean (s : List Char) :
    ∃ n ≤ s.length, clean (clean^[n] s) = clean^[n] s := by
  induction hlength : s.length using Nat.strongRecOn generalizing s with
  | _ length ih =>
    subst hlength
    by_cases hs : clean s = s
    · exact ⟨0, Nat.zero_le _, hs⟩
    · have hshort : (clean s).length < s.length := by
        refine Nat.lt_of_le_of_ne (clean_sublist s).length_le fun hsame => hs ?_
        exact (clean_sublist s).eq_of_length hsame
      obtain ⟨n, hn, hclean⟩ := ih _ hshort (clean s) rfl
      exact ⟨n + 1, by omega, hclean⟩

/-- Each pass of cleaning cuts out what it finds and nothing else; in the end blanks are stripped. A
text stays as it is exactly if it has no blanks at its ends and nothing to take out in it. So cleaning
a second time changes nothing exactly if the first time left nothing; and cleaning again and again
leaves nothing, after as many times at most as there are characters. -/
theorem clean_again_iff (s : List Char) :
    (∃ t, CutAll passes s t ∧ clean s = Text.strip t) ∧
      (clean s = s ↔ Text.strip s = s ∧ Settled s) ∧
      (clean (clean s) = clean s ↔ Settled (clean s)) ∧
      ∃ n ≤ s.length, Settled (clean^[n] s) ∧ ∀ m, n ≤ m → clean^[m] s = clean^[n] s := by
  refine ⟨⟨_, cutAll_foldl_erase tangible_passes s, rfl⟩, clean_eq_self_iff, ?_, ?_⟩
  · rw [clean_eq_self_iff, strip_clean]
    exact and_iff_right rfl
  · obtain ⟨n, hn, hclean⟩ := exists_iterate_clean s
    refine ⟨n, hn, (clean_eq_self_iff.1 hclean).2, fun m hm => ?_⟩
    obtain ⟨k, rfl⟩ := Nat.exists_eq_add_of_le' hm
    rw [Function.iterate_add_apply]
    exact Function.iterate_fixed hclean k

/-- Something of each kind can be left: a heading that stood in a tag, and images, tags and lines of
contents that were put together by cutting out another one. -/
theorem eachKind_left :
    (HasHeading (clean "<p>References</p>\n[1] A".toList) ∧
        clean (clean "<p>References</p>\n[1] A".toList) ≠ clean "<p>References</p>\n[1] A".toList) ∧
      HasImage (clean "!![a](b)[c](d)".toList) ∧ HasOpeningTag (clean "<<p>p>".toList) ∧
      HasClosingTag (clean "</</p>p>".toList) ∧ HasContentsLine (clean "....\nA....1\n2".toList) := by
  have hleft (ps : List Pattern) (hps : ps ∈ passes) (s : List Char) (h : erase ps s ≠ s) :
      Occurs ps s := not_not.1 ((erase_eq_self_iff (tangible_passes ps hps)).not.1 h)
  have hheading := occurs_references_iff.1
    (hleft references (by simp [passes]) (clean "<p>References</p>\n[1] A".toList) (by decide))
  refine ⟨⟨hheading, fun hsame => ?_⟩, occurs_images_iff.1 (hleft _ (by simp [passes]) _ (by decide)),
    occurs_openingTags_iff.1 (hleft _ (by simp [passes]) _ (by decide)),
    occurs_closingTags_iff.1 (hleft _ (by simp [passes]) _ (by decide)),
    occurs_contentsLines_iff.1 (hleft _ (by simp [passes]) _ (by decide))⟩
  exact ((clean_again_iff _).2.2.1.1 hsame).heading hheading

example : Settled (clean "<div>\n# A ![a](b)\nx < y\n</div>\n References\n[1] B".toList) := by
  decide

end Extraction

end Workbench
