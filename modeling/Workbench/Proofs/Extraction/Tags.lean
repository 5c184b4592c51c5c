import Workbench.Extraction.Cleaning
import Workbench.Proofs.Text.Pattern

/-!
# Tags and inequalities

The names of tags are short, and what stands behind a name is not looked at before the next closing
bracket. So a formula is mistaken for a tag when its left side meets such a name, as in `0<p`, and
there is a `>` anywhere later.
-/

namespace Workbench.Extraction

open Pattern

variable {s t u : List Char} {before : Option Char} {w after : List Char}

def IsTagName (u : List Char) : Prop := ∃ name ∈ tagNames, Spelled name u

theorem IsTagName.not_mem {c : Char} (h : IsTagName u)
    (hc : tagNames.all (fun name => name.toList.all fun a => !isLetter a c) = true) : c ∉ u := by
  obtain ⟨name, hname, hu⟩ := h
  exact hu.not_mem (List.all_eq_true.1 hc name hname)

/-! ## The two passes -/

theorem takes_openingTags : (∃ p ∈ openingTags, Takes p before w after) ↔
    ∃ u x, w = '<' :: (u ++ (x ++ ['>'])) ∧ IsTagName u ∧ '>' ∉ x := by
  simp only [openingTags, List.mem_map, exists_exists_and_eq_and, List.append_assoc,
    takes_literal_append, takes_anyCase_append, List.singleton_append, Takes, takes_literal]
  constructor
  · rintro ⟨name, hname, _, rfl, u, _, rfl, hu, x, _, rfl, hx, rfl⟩
    exact ⟨u, x, rfl, ⟨name, hname, hu⟩, fun h => by simpa using hx _ h⟩
  · rintro ⟨u, x, rfl, ⟨name, hname, hu⟩, hx⟩
    refine ⟨name, hname, _, rfl, u, _, rfl, hu, x, _, rfl, fun c hc => ?_, rfl⟩
    exact bne_iff_ne.2 fun he => hx (he ▸ hc)

theorem takes_closingTags : (∃ p ∈ closingTags, Takes p before w after) ↔
    ∃ u, w = '<' :: '/' :: (u ++ ['>']) ∧ IsTagName u := by
  simp only [closingTags, List.mem_map, exists_exists_and_eq_and, List.append_assoc,
    takes_literal_append, takes_anyCase_append, takes_literal]
  constructor
  · rintro ⟨name, hname, _, rfl, u, _, rfl, hu, rfl⟩
    exact ⟨u, rfl, name, hname, hu⟩
  · rintro ⟨u, rfl, name, hname, hu⟩
    exact ⟨name, hname, _, rfl, u, _, rfl, hu, rfl⟩

theorem tangible_openingTags : Tangible openingTags := tangible_of_all rfl

theorem tangible_closingTags : Tangible closingTags := tangible_of_all rfl

def LikeTag (t : List Char) : Prop := ∃ u rest, t = '<' :: (u ++ rest) ∧ IsTagName u

/-- There is a `<` in the text that meets the name of a tag, and a `>` somewhere behind it. -/
def HasOpeningTag (s : List Char) : Prop := ∃ a t, s = a ++ t ∧ LikeTag t ∧ '>' ∈ t

def HasClosingTag (s : List Char) : Prop := ∃ u, IsTagName u ∧ '<' :: '/' :: (u ++ ['>']) <:+: s

theorem LikeTag.takes (h : LikeTag t) (hend : '>' ∈ t) (before : Option Char) :
    ∃ w after, t = w ++ after ∧ ∃ p ∈ openingTags, Takes p before w after := by
  obtain ⟨u, rest, rfl, hu⟩ := h
  have hrest : '>' ∈ rest := by
    simpa [hu.not_mem (c := '>') rfl] using hend
  obtain ⟨x, after, rfl, hx⟩ := List.eq_append_cons_of_mem hrest
  exact ⟨_, after, by simp, takes_openingTags.2 ⟨u, x, rfl, hu, hx⟩⟩

theorem occurs_openingTags_iff : Occurs openingTags s ↔ HasOpeningTag s := by
  constructor
  · rintro ⟨a, w, b, rfl, htakes⟩
    obtain ⟨u, x, rfl, hu, -⟩ := takes_openingTags.1 htakes
    exact ⟨a, _, rfl, ⟨u, x ++ ['>'] ++ b, by simp, hu⟩, by simp⟩
  · rintro ⟨a, t, rfl, hlike, hend⟩
    obtain ⟨w, b, rfl, htakes⟩ := hlike.takes hend (behind none a)
    exact ⟨a, w, b, rfl, htakes⟩

theorem occurs_closingTags_iff : Occurs closingTags s ↔ HasClosingTag s := by
  unfold Occurs HasClosingTag
  simp only [takes_closingTags]
  constructor
  · rintro ⟨a, _, b, rfl, u, rfl, hu⟩
    exact ⟨u, hu, a, b, by simp⟩
  · rintro ⟨u, hu, a, b, rfl⟩
    exact ⟨a, _, b, by simp, u, rfl, hu⟩

/-! ## Inequalities -/

def endsName (c : Char) : Bool := isBlank c || c == '/' || c == '>'

def Tagless (s : List Char) : Prop :=
  ∀ bracket ∈ ["<", "</"], ∀ u c, IsTagName u → bracket.toList ++ (u ++ [c]) <:+: s →
    endsName c = false

def tagStarts : List Pattern :=
  ["<", "</"].flatMap fun bracket =>
    tagNames.map fun name => literal bracket ++ anyCase name ++ [.one endsName]

theorem occurs_tagStarts_iff : Occurs tagStarts s ↔ ¬Tagless s := by
  unfold Occurs Tagless
  simp only [tagStarts, List.mem_flatMap, List.mem_map, List.append_assoc]
  constructor
  · rintro ⟨a, w, b, rfl, p, ⟨bracket, hbracket, name, hname, rfl⟩, htakes⟩ h
    rw [takes_literal_append] at htakes
    obtain ⟨_, rfl, htakes⟩ := htakes
    rw [takes_anyCase_append] at htakes
    obtain ⟨u, _, rfl, hu, c, _, rfl, hc, rfl⟩ := htakes
    have hend := h bracket hbracket u c ⟨name, hname, hu⟩ ⟨a, b, by simp⟩
    rw [hend] at hc
    cases hc
  · intro h
    push Not at h
    obtain ⟨bracket, hbracket, u, c, ⟨name, hname, hu⟩, ⟨a, b, rfl⟩, hc⟩ := h
    refine ⟨a, _, b, List.append_assoc .., _, ⟨bracket, hbracket, name, hname, rfl⟩, ?_⟩
    rw [takes_literal_append]
    refine ⟨_, rfl, ?_⟩
    rw [takes_anyCase_append]
    exact ⟨u, _, rfl, hu, c, [], rfl, by simpa using hc, rfl⟩

instance : Decidable (Tagless s) :=
  decidable_of_iff (erase tagStarts s = s) <| by
    rw [erase_eq_self_iff (tangible_of_all rfl), occurs_tagStarts_iff, not_not]

theorem Tagless.not_occurs_closingTags (h : Tagless s) : ¬Occurs closingTags s := by
  rw [occurs_closingTags_iff]
  rintro ⟨u, hu, hinfix⟩
  have hend := h "</" (by simp) u '>' hu hinfix
  cases hend

theorem takeWhile_bracket {m rest : List Char} (hm : '>' ∉ m) :
    (m ++ '>' :: rest).takeWhile (· != '>') = m := by
  have hall : ∀ c ∈ m, (c != '>') = true := fun c hc => bne_iff_ne.2 fun he => hm (he ▸ hc)
  rw [List.takeWhile_append_of_pos hall]
  simp

theorem fitAny_openingTags {m rest : List Char} (h : LikeTag (m ++ '>' :: rest)) (hm : '>' ∉ m) :
    fitAny openingTags before (m ++ '>' :: rest) = some (m.length + 1) := by
  cases hfit : fitAny openingTags before (m ++ '>' :: rest) with
  | none =>
    obtain ⟨w, after, hs, p, hp, htakes⟩ := h.takes (by simp) before
    exact absurd htakes (fitAny_eq_none_iff.1 hfit p hp w after hs)
  | some n =>
    obtain ⟨w, after, hs, rfl, htakes⟩ := takes_of_fitAny hfit
    obtain ⟨u, x, rfl, hu, hx⟩ := takes_openingTags.1 htakes
    have hstart : '>' ∉ '<' :: (u ++ x) := by
      simp [hu.not_mem (c := '>') rfl, hx]
    have hm' : m = '<' :: (u ++ x) := by
      rw [← @takeWhile_bracket m rest hm, ← @takeWhile_bracket _ after hstart, hs]
      simp
    rw [hm', Option.some_inj]
    simp only [List.length_cons, List.length_append, List.length_nil]
    omega

/-- Where no tag begins, the passes over tags leave the text alone exactly if no `>` follows a `<` that
meets the name of a tag. Otherwise all from the first such `<` up to the next `>` is lost. -/
theorem tagPasses_keep_iff (h : Tagless s) :
    (erase closingTags (erase openingTags s) = s ↔ ¬HasOpeningTag s) ∧
      ∀ a m rest, s = a ++ (m ++ '>' :: rest) → LikeTag (m ++ '>' :: rest) → '>' ∉ m →
        (∀ b t, s = b ++ t → LikeTag t → a.length ≤ b.length) →
        erase openingTags s = a ++ erase openingTags rest := by
  constructor
  · have hpasses := @foldl_erase_eq_self_iff s [openingTags, closingTags]
      (by simp [tangible_openingTags, tangible_closingTags])
    rw [List.foldl_cons, List.foldl_cons, List.foldl_nil] at hpasses
    rw [hpasses, List.forall_mem_cons, List.forall_mem_singleton, occurs_openingTags_iff]
    exact and_iff_left h.not_occurs_closingTags
  · rintro a m rest rfl hlike hm hfirst
    have hfit := @fitAny_openingTags none m rest hlike hm
    have hbracket : m ++ '>' :: rest = m ++ ['>'] ++ rest := by simp
    rw [hbracket] at hfit hfirst ⊢
    refine erase_append rfl (fun x y hxy hy => ?_) (by simp) (by simpa using hfit)
    rw [fitAny_eq_none_iff]
    intro p hp w after hs htakes
    obtain ⟨u, z, rfl, hu, -⟩ := takes_openingTags.1 ⟨p, hp, htakes⟩
    have hlength := hfirst x (y ++ (m ++ ['>'] ++ rest)) (by rw [hxy, List.append_assoc])
      ⟨u, z ++ ['>'] ++ after, by rw [hs]; simp, hu⟩
    have hpos := List.length_pos_iff.2 hy
    rw [hxy, List.length_append] at hlength
    omega

theorem inequality_lost :
    Tagless "0<p<1, q>2".toList ∧
      erase openingTags "0<p<1, q>2".toList = "0".toList ++ erase openingTags "2".toList ∧
      erase closingTags (erase openingTags "0<p<1, q>2".toList) ≠ "0<p<1, q>2".toList ∧
      clean "0<p<1, q>2".toList = "02".toList := by
  have hlike : LikeTag "<p<1, q>2".toList :=
    ⟨['p'], "<1, q>2".toList, rfl, "p", by decide, .cons rfl .nil⟩
  have htagless : Tagless "0<p<1, q>2".toList := by decide
  obtain ⟨hkeep, hlost⟩ := tagPasses_keep_iff htagless
  refine ⟨htagless, ?_, fun hsame => ?_, by decide⟩
  · refine hlost ['0'] "<p<1, q".toList ['2'] rfl hlike (by decide) fun b t hs htag => ?_
    cases b with
    | nil =>
      obtain ⟨u, rest, rfl, -⟩ := htag
      cases hs
    | cons c b => simp
  · exact hkeep.1 hsame ⟨['0'], _, rfl, hlike, by decide⟩

end Workbench.Extraction
