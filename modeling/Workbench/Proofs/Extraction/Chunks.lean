import Mathlib.Data.List.SplitBy
import Workbench.Extraction.Chunks

/-!
# Chunks of a text

There is one way to divide a text into paragraphs. The chunks hold the paragraphs in their order, a
chunk of several keeps to the limit, and no other way of putting neighbours together needs fewer
chunks.
-/

namespace Workbench.Extraction

variable {limit : Int} {p q s t : List Char} {ps qs group : List (List Char)}
  {gs : List (List (List Char))} {n size : Nat}

/-! ## Paragraphs -/

def Solid (p : List Char) : Prop := p.IsChain fun a b => ¬(a = '\n' ∧ b = '\n')

/-- A text divided into its paragraphs. Two line feeds or more part two of them, and none of these
belongs to a paragraph. -/
inductive Divided : List Char → List (List Char) → Prop
  | last {p : List Char} : Solid p → Divided p [p]
  | more {p rest : List Char} {ps : List (List Char)} {n : Nat} : Solid p → p.getLast? ≠ some '\n' →
      2 ≤ n → rest.head? ≠ some '\n' → Divided rest ps →
      Divided (p ++ (List.replicate n '\n' ++ rest)) (p :: ps)

theorem Divided.ne_nil (h : Divided s ps) : ps ≠ [] := by
  cases h <;> simp

theorem Solid.append (hp : Solid p) (hq : Solid q)
    (h : p.getLast? ≠ some '\n' ∨ q.head? ≠ some '\n') : Solid (p ++ q) := by
  refine List.IsChain.append hp hq fun a ha b hb hab => ?_
  rw [hab.1] at ha
  rw [hab.2] at hb
  exact h.elim (fun h => h ha) (fun h => h hb)

theorem solid_replicate (h : n < 2) : Solid (List.replicate n '\n') := by
  match n with
  | 0 => exact .nil
  | 1 => exact .singleton _

theorem divided_paragraphsFrom {para : List Char} (hsolid : Solid para.reverse)
    (hend : para.head? ≠ some '\n') (breaks : Nat) :
    Divided (para.reverse ++ (List.replicate breaks '\n' ++ s)) (paragraphsFrom para breaks s) := by
  induction s generalizing para breaks with
  | nil =>
    rw [paragraphsFrom]
    by_cases hbreaks : 2 ≤ breaks
    · rw [if_pos hbreaks]
      exact .more hsolid (by simpa using hend) hbreaks (by simp) (.last .nil)
    · rw [if_neg hbreaks, List.append_nil, List.reverse_append, List.reverse_replicate]
      exact .last (hsolid.append (solid_replicate (by omega)) (.inl (by simpa using hend)))
  | cons c r ih =>
    rw [paragraphsFrom]
    by_cases hc : c = '\n'
    · rw [if_pos hc, hc]
      have h := ih hsolid hend (breaks + 1)
      rwa [List.replicate_succ', List.append_assoc] at h
    · rw [if_neg hc]
      by_cases hbreaks : 2 ≤ breaks
      · rw [if_pos hbreaks]
        refine .more hsolid (by simpa using hend) hbreaks (by simpa using hc) ?_
        exact @ih [c] (.singleton c) (by simpa using hc) 0
      · rw [if_neg hbreaks]
        -- a single line feed, if there is one, goes into the paragraph
        have hfeed : Solid (para.reverse ++ List.replicate breaks '\n') :=
          hsolid.append (solid_replicate (by omega)) (.inl (by simpa using hend))
        have hnext : Solid (c :: (List.replicate breaks '\n' ++ para)).reverse := by
          rw [List.reverse_cons, List.reverse_append, List.reverse_replicate]
          exact hfeed.append (.singleton c) (.inr (by simpa using hc))
        have h := ih hnext (by simpa using hc) 0
        simpa using h

theorem divided_paragraphs (s : List Char) : Divided s (paragraphs s) :=
  @divided_paragraphsFrom s [] .nil (by simp) 0

theorem not_solid_break (hn : 2 ≤ n) : ¬Solid (p ++ (List.replicate n '\n' ++ s)) := by
  obtain ⟨n, rfl⟩ : ∃ k, n = k + 2 := ⟨n - 2, by omega⟩
  exact fun h => (List.isChain_append_cons_cons.1 h).2.1 ⟨rfl, rfl⟩

/-- A paragraph cannot reach into the break behind it: it would end in a line feed or hold two. -/
theorem eq_nil_of_break {x : List Char} {m : Nat} (hx : Solid (p ++ x))
    (hend : (p ++ x).getLast? ≠ some '\n') (hn : 2 ≤ n)
    (h : List.replicate n '\n' ++ s = x ++ (List.replicate m '\n' ++ t)) : x = [] := by
  obtain ⟨n, rfl⟩ : ∃ k, n = k + 2 := ⟨n - 2, by omega⟩
  match x with
  | [] => rfl
  | [c] =>
    rw [List.replicate_succ, List.cons_append, List.singleton_append, List.cons.injEq] at h
    simp [← h.1] at hend
  | c :: d :: x =>
    simp only [List.replicate_succ, List.cons_append, List.cons.injEq] at h
    rw [← h.1, ← h.2.1] at hx
    exact absurd ⟨rfl, rfl⟩ (List.isChain_append_cons_cons.1 hx).2.1

theorem dropWhile_break (h : s.head? ≠ some '\n') :
    (List.replicate n '\n' ++ s).dropWhile (· == '\n') = s := by
  rw [List.dropWhile_append_of_pos fun c hc => by simp [List.eq_of_mem_replicate hc]]
  cases s with
  | nil => rfl
  | cons c r => exact List.dropWhile_cons_of_neg (by simpa using h)

theorem Divided.unique (h : Divided s ps) (h' : Divided s qs) : ps = qs := by
  induction h generalizing qs with
  | last hp =>
    cases h' with
    | last _ => rfl
    | more _ _ hn _ _ => exact absurd hp (not_solid_break hn)
  | @more p rest ps n hp hend hn hhead _ ih =>
    generalize hs : p ++ (List.replicate n '\n' ++ rest) = s at h'
    cases h' with
    | last hq => exact absurd (hs ▸ hq) (not_solid_break hn)
    | @more q rest' qs m hq hend' hm hhead' hrest' =>
      have hpq : p = q ∧ List.replicate n '\n' ++ rest = List.replicate m '\n' ++ rest' := by
        rcases List.append_eq_append_iff.1 hs with ⟨x, rfl, h⟩ | ⟨x, rfl, h⟩
        · obtain rfl := eq_nil_of_break hq hend' hn h
          simpa using h
        · obtain rfl := eq_nil_of_break hp hend hm h
          simpa using h.symm
      have hrest : rest = rest' := by
        rw [← @dropWhile_break rest n hhead, hpq.2, dropWhile_break hhead']
      rw [hpq.1, ih (hrest ▸ hrest')]

/-! ## Breaks -/

/-- A text where every run of more than two line feeds is cut down to two. -/
def evenBreaks (s : List Char) : List Char :=
  (s.splitBy fun a b => a == '\n' && b == '\n').flatMap (·.take 2)

theorem evenBreaks_append (h : s.getLast? ≠ some '\n' ∨ t.head? ≠ some '\n') :
    evenBreaks (s ++ t) = evenBreaks s ++ evenBreaks t := by
  unfold evenBreaks
  rw [List.splitBy_append, List.flatMap_append]
  intro a ha b hb
  rw [Bool.and_eq_false_iff, beq_eq_false_iff_ne, beq_eq_false_iff_ne]
  rw [Option.mem_def] at ha hb
  exact h.imp (fun h hc => h (hc ▸ ha)) (fun h hc => h (hc ▸ hb))

theorem evenBreaks_of_solid (h : Solid p) : evenBreaks p = p := by
  induction p with
  | nil => rfl
  | cons c p ih =>
    have htail : evenBreaks p = p := ih h.tail
    rw [← List.singleton_append, evenBreaks_append, htail]
    · rfl
    · cases p with
      | nil => exact .inr (by simp)
      | cons d p =>
        have hcd := (List.isChain_cons_cons.1 h).1
        by_cases hc : c = '\n'
        · exact .inr (by simpa using fun hd => hcd ⟨hc, hd⟩)
        · exact .inl (by simpa using hc)

theorem evenBreaks_replicate (hn : 2 ≤ n) : evenBreaks (List.replicate n '\n') = paragraphBreak := by
  obtain ⟨n, rfl⟩ : ∃ k, n = k + 2 := ⟨n - 2, by omega⟩
  unfold evenBreaks
  rw [List.splitBy_of_isChain (by simp)]
  · rfl
  · exact List.isChain_replicate_of_rel _ (by simp)

/-- Paragraphs with a break between each two give the text with even breaks. -/
theorem Divided.intercalate_eq (h : Divided s ps) : paragraphBreak.intercalate ps = evenBreaks s := by
  induction h with
  | last hp => rw [List.intercalate_singleton, evenBreaks_of_solid hp]
  | more hp hend hn hhead hrest ih =>
    rw [List.intercalate_cons_of_ne_nil hrest.ne_nil, ih, List.append_assoc,
      evenBreaks_append (.inl hend), evenBreaks_append (.inr hhead), evenBreaks_of_solid hp,
      evenBreaks_replicate hn]

/-! ## Groups -/

/-- Neighbouring paragraphs put together. A group of several keeps to the limit; a paragraph alone
may be longer. -/
structure Grouping (limit : Int) (ps : List (List Char)) (gs : List (List (List Char))) : Prop where
  flatten_eq : gs.flatten = ps
  ne_nil : ∀ g ∈ gs, g ≠ []
  within : ∀ g ∈ gs, 2 ≤ g.length → ((paragraphBreak.intercalate g).length : Int) ≤ limit

theorem length_intercalate_cons (p : List Char) (h : ps ≠ []) :
    (paragraphBreak.intercalate (p :: ps)).length =
      p.length + 2 + (paragraphBreak.intercalate ps).length := by
  rw [List.intercalate_cons_of_ne_nil h, List.length_append, List.length_append]
  rfl

theorem intercalate_append (hp : ps ≠ []) (hq : qs ≠ []) :
    paragraphBreak.intercalate (ps ++ qs) =
      paragraphBreak.intercalate ps ++ paragraphBreak ++ paragraphBreak.intercalate qs := by
  induction ps with
  | nil => exact absurd rfl hp
  | cons p ps ih =>
    cases ps with
    | nil => rw [List.singleton_append, List.intercalate_cons_of_ne_nil hq, List.intercalate_singleton]
    | cons p' ps =>
      rw [List.cons_append, List.intercalate_cons_of_ne_nil (by simp), ih (by simp),
        List.intercalate_cons_cons]
      simp only [List.append_assoc]

theorem intercalate_flatten (h : ∀ g ∈ gs, g ≠ []) :
    paragraphBreak.intercalate (gs.map fun g => paragraphBreak.intercalate g) =
      paragraphBreak.intercalate gs.flatten := by
  induction gs with
  | nil => rfl
  | cons g gs ih =>
    have hrest : ∀ g ∈ gs, g ≠ [] := fun g hg => h g (List.mem_cons_of_mem _ hg)
    cases gs with
    | nil => simp
    | cons g' gs =>
      have hflat : (g' :: gs).flatten ≠ [] := by
        simp [hrest g' List.mem_cons_self]
      rw [List.flatten_cons, intercalate_append (h g List.mem_cons_self) hflat, ← ih hrest,
        List.map_cons, List.intercalate_cons_of_ne_nil (by simp)]

/-- A group that was begun, in reverse, and its size. The size counts a break behind every paragraph,
one more than there will be. -/
structure Begun (limit : Int) (group : List (List Char)) (size : Nat) : Prop where
  ne_nil : group ≠ []
  size_eq : size = (paragraphBreak.intercalate group.reverse).length + 2
  within : 2 ≤ group.length → ((paragraphBreak.intercalate group.reverse).length : Int) ≤ limit

theorem begun_singleton (limit : Int) (p : List Char) : Begun limit [p] (p.length + 2) :=
  ⟨by simp, by simp, by simp⟩

theorem Begun.cons (h : Begun limit group size) (hp : ((size + p.length : Nat) : Int) ≤ limit) :
    Begun limit (p :: group) (size + p.length + 2) := by
  have hlength : (paragraphBreak.intercalate (p :: group).reverse).length = size + p.length := by
    rw [List.reverse_cons, intercalate_append (by simpa using h.ne_nil) (by simp), h.size_eq,
      List.intercalate_singleton, List.length_append, List.length_append]
    rfl
  exact ⟨by simp, by rw [hlength], fun _ => by rw [hlength]; exact hp⟩

theorem Grouping.cons {g : List (List Char)} (h : Grouping limit ps gs) (hg : g ≠ [])
    (hlimit : 2 ≤ g.length → ((paragraphBreak.intercalate g).length : Int) ≤ limit) :
    Grouping limit (g ++ ps) (g :: gs) :=
  ⟨by rw [List.flatten_cons, h.flatten_eq], List.forall_mem_cons.2 ⟨hg, h.ne_nil⟩,
    List.forall_mem_cons.2 ⟨hlimit, h.within⟩⟩

theorem grouping_groupsFrom (h : Begun limit group size) (ps : List (List Char)) :
    Grouping limit (group.reverse ++ ps) (groupsFrom limit group size ps) := by
  induction ps generalizing group size with
  | nil =>
    rw [groupsFrom, if_neg (by simpa using h.ne_nil)]
    exact Grouping.cons ⟨rfl, by simp, by simp⟩ (by simpa using h.ne_nil) (by simpa using h.within)
  | cons p ps ih =>
    rw [groupsFrom]
    by_cases hp : limit < (size + p.length : Nat)
    · rw [if_pos ⟨hp, h.ne_nil⟩]
      exact (ih (begun_singleton limit p)).cons (by simpa using h.ne_nil) (by simpa using h.within)
    · rw [if_neg fun hc => hp hc.1]
      have hnext := ih (h.cons (Int.not_lt.1 hp))
      rwa [List.reverse_cons, List.append_assoc] at hnext

/-! ## How many groups -/

def groupCount (limit : Int) (size : Nat) : List (List Char) → Nat
  | [] => 1
  | p :: ps =>
    if limit < (size + p.length : Nat) then groupCount limit (p.length + 2) ps + 1
    else groupCount limit (size + p.length + 2) ps

theorem length_groupsFrom (h : group ≠ []) :
    (groupsFrom limit group size ps).length = groupCount limit size ps := by
  induction ps generalizing group size with
  | nil => rw [groupsFrom, if_neg (by simpa using h)]; rfl
  | cons p ps ih =>
    rw [groupsFrom, groupCount]
    by_cases hp : limit < (size + p.length : Nat)
    · rw [if_pos ⟨hp, h⟩, if_pos hp, List.length_cons, ih (by simp)]
    · rw [if_neg fun hc => hp hc.1, if_neg hp, ih (by simp)]

/-- A smaller group leaves room, so it never leads to more groups; and however small it is, it saves
one group at most. -/
theorem groupCount_mono (limit : Int) (ps : List (List Char)) :
    (∀ a b, groupCount limit a ps ≤ groupCount limit b ps + 1) ∧
      ∀ a b, a ≤ b → groupCount limit a ps ≤ groupCount limit b ps := by
  induction ps with
  | nil => simp [groupCount]
  | cons p ps ih =>
    obtain ⟨hone, hmono⟩ := ih
    constructor
    · intro a b
      have hfresh := hmono (p.length + 2) (b + p.length + 2) (by omega)
      have hgrown := hone (a + p.length + 2) (p.length + 2)
      have hboth := hone (a + p.length + 2) (b + p.length + 2)
      unfold groupCount
      split <;> split <;> omega
    · intro a b hab
      have hgrown := hone (a + p.length + 2) (p.length + 2)
      have hboth := hmono (a + p.length + 2) (b + p.length + 2) (by omega)
      unfold groupCount
      split <;> split <;> omega

/-- As long as paragraphs fit, they go into the group that was begun. -/
theorem exists_groupCount_append {rest : List (List Char)}
    (h : rest ≠ [] → ((size + (paragraphBreak.intercalate rest).length : Nat) : Int) ≤ limit)
    (ps : List (List Char)) :
    ∃ grown, groupCount limit size (rest ++ ps) = groupCount limit grown ps := by
  induction rest generalizing size with
  | nil => exact ⟨size, rfl⟩
  | cons p rest ih =>
    have hfit := h (by simp)
    have hp : ¬limit < (size + p.length : Nat) := by
      by_cases hrest : rest = []
      · rw [hrest, List.intercalate_singleton] at hfit
        omega
      · rw [length_intercalate_cons p hrest] at hfit
        omega
    rw [List.cons_append, groupCount, if_neg hp]
    refine ih fun hrest => ?_
    rw [length_intercalate_cons p hrest] at hfit
    omega

theorem groupCount_cons_le (limit : Int) (size : Nat) (p : List Char) (ps : List (List Char)) :
    groupCount limit size (p :: ps) ≤ groupCount limit (p.length + 2) ps + 1 := by
  rw [groupCount]
  split
  · exact Nat.le_refl _
  · exact (groupCount_mono limit ps).1 _ _

theorem Grouping.tail {g : List (List Char)} (h : Grouping limit ps (g :: gs)) :
    Grouping limit gs.flatten gs :=
  ⟨rfl, fun g hg => h.ne_nil g (List.mem_cons_of_mem _ hg),
    fun g hg => h.within g (List.mem_cons_of_mem _ hg)⟩

/-- What is left of the first group fits once its first paragraph is there. -/
theorem Grouping.rest_within {rest : List (List Char)} (h : Grouping limit ps ((p :: rest) :: gs))
    (hrest : rest ≠ []) :
    ((p.length + 2 + (paragraphBreak.intercalate rest).length : Nat) : Int) ≤ limit := by
  rw [← length_intercalate_cons p hrest]
  refine h.within _ List.mem_cons_self ?_
  have := List.length_pos_iff.2 hrest
  rw [List.length_cons]
  omega

/-- Whatever was begun before, there is one group more at most than in any other grouping of what
follows. -/
theorem Grouping.groupCount_le (h : Grouping limit ps gs) (size : Nat) :
    groupCount limit size ps ≤ gs.length + 1 := by
  obtain rfl := h.flatten_eq
  induction gs generalizing size with
  | nil => exact Nat.le_refl 1
  | cons g gs ih =>
    cases g with
    | nil => exact absurd rfl (h.ne_nil [] List.mem_cons_self)
    | cons p rest =>
      obtain ⟨grown, hgrown⟩ := exists_groupCount_append h.rest_within gs.flatten
      have hnext := ih grown h.tail
      have hfirst := groupCount_cons_le limit size p (rest ++ gs.flatten)
      rw [hgrown] at hfirst
      rw [List.flatten_cons, List.cons_append, List.length_cons]
      omega

/-- No grouping has fewer groups than the one where each is filled before the next is begun. -/
theorem Grouping.length_groups_le (h : Grouping limit ps gs) :
    (groups limit ps).length ≤ gs.length := by
  obtain rfl := h.flatten_eq
  cases gs with
  | nil => exact Nat.le_refl 0
  | cons g gs =>
    cases g with
    | nil => exact absurd rfl (h.ne_nil [] List.mem_cons_self)
    | cons p rest =>
      obtain ⟨grown, hgrown⟩ := exists_groupCount_append h.rest_within gs.flatten
      have hnext := h.tail.groupCount_le grown
      rw [List.flatten_cons, List.cons_append, groups, groupsFrom, if_neg (by simp),
        length_groupsFrom (by simp), Nat.zero_add, hgrown]
      exact hnext

theorem grouping_groups (limit : Int) (ps : List (List Char)) :
    Grouping limit ps (groups limit ps) := by
  cases ps with
  | nil => exact ⟨rfl, by simp [groups, groupsFrom], by simp [groups, groupsFrom]⟩
  | cons p ps =>
    rw [groups, groupsFrom, if_neg (by simp), Nat.zero_add]
    exact grouping_groupsFrom (begun_singleton limit p) ps

/-- The chunks of a text hold all of it, with even breaks. They are made of the paragraphs, which the
text determines; a chunk of several paragraphs keeps to the limit, and there are as few chunks as in
any grouping of which this is true. -/
theorem chunks_fewest (limit : Int) (s : List Char) :
    paragraphBreak.intercalate (chunks limit s) = evenBreaks s ∧
      ∃ ps, (∀ qs, Divided s qs ↔ qs = ps) ∧
        (∃ gs, Grouping limit ps gs ∧
          chunks limit s = gs.map fun g => paragraphBreak.intercalate g) ∧
        ∀ gs, Grouping limit ps gs → (chunks limit s).length ≤ gs.length := by
  have hgroups := grouping_groups limit (paragraphs s)
  have hdivided := divided_paragraphs s
  refine ⟨?_, paragraphs s, fun qs => ?_, ⟨_, hgroups, rfl⟩, fun gs hgs => ?_⟩
  · rw [chunks, intercalate_flatten hgroups.ne_nil, hgroups.flatten_eq, hdivided.intercalate_eq]
  · exact ⟨fun h => h.unique hdivided, fun h => h ▸ hdivided⟩
  · rw [chunks, List.length_map]
    exact hgs.length_groups_le

example : chunks 6 "ab\n\n\ncd\n\nefghijk\n\n".toList =
    ["ab\n\ncd".toList, "efghijk".toList, "".toList] := by
  decide

end Workbench.Extraction
