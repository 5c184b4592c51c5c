import Mathlib.Data.List.Forall2
import Workbench.Text.Pattern

/-!
# What patterns take

`Takes` says which texts a pattern takes at a place, without saying which of them it tries first.
Matching finds one of them whenever there is one. Erasing cuts out such texts from left to right, so
it leaves a text alone exactly if the pattern takes nothing in it.
-/

namespace Workbench.Pattern

variable {p : Char → Bool} {next : Option Char → List Char → Option Nat} {pattern : Pattern}
  {patterns : List Pattern} {before : Option Char} {c : Char} {s t u w after kept : List Char} {n : Nat}

def behind (before : Option Char) (u : List Char) : Option Char := u.getLast?.or before

@[simp] theorem behind_nil (before : Option Char) : behind before [] = before := rfl

@[simp] theorem behind_cons (before : Option Char) (c : Char) (u : List Char) :
    behind before (c :: u) = behind (some c) u := by
  cases u with
  | nil => rfl
  | cons d u => simp [behind, List.getLast?_cons]

/-! ## Pieces -/

/-- The pattern takes the text `w` between the character `before` and the text `after`. -/
def Takes : Pattern → Option Char → List Char → List Char → Prop
  | [], _, w, _ => w = []
  | .one p :: ps, _, w, after => ∃ c v, w = c :: v ∧ p c = true ∧ Takes ps (some c) v after
  | .many p :: ps, before, w, after | .few p :: ps, before, w, after =>
    ∃ u v, w = u ++ v ∧ (∀ c ∈ u, p c = true) ∧ Takes ps (behind before u) v after
  | .rest :: ps, before, w, after => after = [] ∧ Takes ps (behind before w) [] []
  | .border :: ps, before, w, after => atBorder before (w ++ after) = true ∧ Takes ps before w after
  | .lineStart :: ps, before, w, after => before.all (· == '\n') = true ∧ Takes ps before w after
  | .lineEnd :: ps, before, w, after =>
    (w ++ after).head?.all (· == '\n') = true ∧ Takes ps before w after

theorem takes_ones_append (f : Char → Char → Bool) (l : List Char) :
    Takes ((l.map fun a => Piece.one (f a)) ++ pattern) before w after ↔
      ∃ u v, w = u ++ v ∧ List.Forall₂ (fun a c => f a c = true) l u ∧
        Takes pattern (behind before u) v after := by
  induction l generalizing before w with
  | nil => simp
  | cons a l ih =>
    simp only [List.map_cons, List.cons_append, Takes, ih]
    constructor
    · rintro ⟨c, _, rfl, hc, u, v, rfl, hu, hv⟩
      exact ⟨c :: u, v, rfl, .cons hc hu, by rwa [behind_cons]⟩
    · rintro ⟨_, v, rfl, hu, hv⟩
      cases hu with
      | @cons _ c _ u hc hu => exact ⟨c, u ++ v, rfl, hc, u, v, rfl, hu, by rwa [behind_cons] at hv⟩

/-- The text is the other one, which is in small letters, in letters of either case. -/
def Spelled (small : String) (u : List Char) : Prop :=
  List.Forall₂ (fun a c => isLetter a c = true) small.toList u

theorem takes_anyCase_append (small : String) :
    Takes (anyCase small ++ pattern) before w after ↔
      ∃ u v, w = u ++ v ∧ Spelled small u ∧ Takes pattern (behind before u) v after :=
  takes_ones_append isLetter small.toList

theorem Spelled.not_mem {small : String} (h : Spelled small u)
    (hc : small.toList.all (fun a => !isLetter a c) = true) : c ∉ u := by
  unfold Spelled at h
  generalize small.toList = l at h hc
  induction h with
  | nil => exact List.not_mem_nil
  | cons hletter _ ih =>
    rw [List.all_cons, Bool.and_eq_true, Bool.not_eq_true'] at hc
    rw [List.mem_cons, not_or]
    refine ⟨fun he => ?_, ih hc.2⟩
    rw [he, hletter] at hc
    cases hc.1

theorem takes_literal_append (text : String) :
    Takes (literal text ++ pattern) before w after ↔
      ∃ v, w = text.toList ++ v ∧ Takes pattern (behind before text.toList) v after := by
  have hsame (u : List Char) : List.Forall₂ (fun a c => (c == a) = true) text.toList u ↔
      u = text.toList := by
    have hswap : (fun a c : Char => (c == a) = true) = fun a c => a = c :=
      funext₂ fun a c => propext (by rw [beq_iff_eq, eq_comm])
    rw [hswap, List.forall₂_eq_eq_eq, eq_comm]
  unfold literal
  rw [takes_ones_append fun a c => c == a]
  constructor
  · rintro ⟨u, v, rfl, hu, hv⟩
    obtain rfl := (hsame u).1 hu
    exact ⟨v, rfl, hv⟩
  · rintro ⟨v, rfl, hv⟩
    exact ⟨_, v, rfl, (hsame _).2 rfl, hv⟩

theorem takes_literal (text : String) : Takes (literal text) before w after ↔ w = text.toList := by
  have h := @takes_literal_append [] before w after text
  rw [List.append_nil] at h
  rw [h]
  simp [Takes]

/-! ## Matching -/

theorem takeMany_eq_some (h : takeMany p next before s = some n) :
    ∃ u v k, s = u ++ v ∧ (∀ c ∈ u, p c = true) ∧ next (behind before u) v = some k ∧
      n = u.length + k := by
  induction s generalizing before n with
  | nil => exact ⟨[], [], n, rfl, by simp, h, by simp⟩
  | cons c r ih =>
    have hstop (h : next before (c :: r) = some n) :
        ∃ u v k, c :: r = u ++ v ∧ (∀ c ∈ u, p c = true) ∧ next (behind before u) v = some k ∧
          n = u.length + k := ⟨[], c :: r, n, rfl, by simp, h, by simp⟩
    rw [takeMany] at h
    by_cases hc : p c = true
    · rw [if_pos hc] at h
      cases hmore : takeMany p next (some c) r with
      | none =>
        rw [hmore] at h
        exact hstop h
      | some m =>
        rw [hmore] at h
        obtain ⟨u, v, k, rfl, hu, hv, rfl⟩ := ih hmore
        refine ⟨c :: u, v, k, rfl, List.forall_mem_cons.2 ⟨hc, hu⟩, by rwa [behind_cons], ?_⟩
        rw [← Option.some.inj h, List.length_cons]
        omega
    · rw [if_neg hc] at h
      exact hstop h

theorem isSome_takeMany (hu : ∀ c ∈ u, p c = true) (h : (next (behind before u) s).isSome = true) :
    (takeMany p next before (u ++ s)).isSome = true := by
  induction u generalizing before with
  | nil =>
    rw [List.nil_append]
    cases s with
    | nil => exact h
    | cons c r =>
      rw [takeMany]
      split
      · split
        · rfl
        · exact h
      · exact h
  | cons c u ih =>
    rw [List.forall_mem_cons] at hu
    rw [behind_cons] at h
    rw [List.cons_append, takeMany, if_pos hu.1]
    obtain ⟨m, hm⟩ := Option.isSome_iff_exists.1 (ih hu.2 h)
    rw [hm]
    rfl

theorem takeFew_eq_some (h : takeFew p next before s = some n) :
    ∃ u v k, s = u ++ v ∧ (∀ c ∈ u, p c = true) ∧ next (behind before u) v = some k ∧
      n = u.length + k := by
  induction s generalizing before n with
  | nil => exact ⟨[], [], n, rfl, by simp, h, by simp⟩
  | cons c r ih =>
    rw [takeFew] at h
    cases hnow : next before (c :: r) with
    | some k =>
      rw [hnow] at h
      exact ⟨[], c :: r, n, rfl, by simp, hnow.trans h, by simp⟩
    | none =>
      rw [hnow] at h
      obtain ⟨hc, h⟩ := Option.ite_none_right_eq_some.1 h
      obtain ⟨m, hm, rfl⟩ := Option.map_eq_some_iff.1 h
      obtain ⟨u, v, k, rfl, hu, hv, rfl⟩ := ih hm
      refine ⟨c :: u, v, k, rfl, List.forall_mem_cons.2 ⟨hc, hu⟩, by rwa [behind_cons], ?_⟩
      rw [List.length_cons]
      omega

theorem isSome_takeFew (hu : ∀ c ∈ u, p c = true) (h : (next (behind before u) s).isSome = true) :
    (takeFew p next before (u ++ s)).isSome = true := by
  induction u generalizing before with
  | nil =>
    rw [List.nil_append]
    rw [behind_nil] at h
    obtain ⟨k, hk⟩ := Option.isSome_iff_exists.1 h
    cases s with
    | nil => exact h
    | cons c r => rw [takeFew, hk]; rfl
  | cons c u ih =>
    rw [List.forall_mem_cons] at hu
    rw [behind_cons] at h
    rw [List.cons_append, takeFew]
    split
    · rfl
    · rw [if_pos hu.1, Option.isSome_map]
      exact ih hu.2 h

theorem takes_of_fit (h : fit pattern before s = some n) :
    ∃ w after, s = w ++ after ∧ w.length = n ∧ Takes pattern before w after := by
  induction pattern generalizing before s n with
  | nil => exact ⟨[], s, rfl, Option.some.inj h, rfl⟩
  | cons piece ps ih =>
    cases piece with
    | one p =>
      cases s with
      | nil => cases h
      | cons c r =>
        obtain ⟨hc, h⟩ := Option.ite_none_right_eq_some.1 h
        obtain ⟨k, hk, rfl⟩ := Option.map_eq_some_iff.1 h
        obtain ⟨w, after, rfl, rfl, hw⟩ := ih hk
        exact ⟨c :: w, after, rfl, rfl, c, w, rfl, hc, hw⟩
    | many p =>
      obtain ⟨u, v, k, rfl, hu, hk, rfl⟩ := takeMany_eq_some h
      obtain ⟨w, after, rfl, rfl, hw⟩ := ih hk
      exact ⟨u ++ w, after, by simp, by simp, u, w, rfl, hu, hw⟩
    | few p =>
      obtain ⟨u, v, k, rfl, hu, hk, rfl⟩ := takeFew_eq_some h
      obtain ⟨w, after, rfl, rfl, hw⟩ := ih hk
      exact ⟨u ++ w, after, by simp, by simp, u, w, rfl, hu, hw⟩
    | rest =>
      obtain ⟨k, hk, rfl⟩ := Option.map_eq_some_iff.1 h
      obtain ⟨w, after, hnil, rfl, hw⟩ := ih hk
      obtain ⟨rfl, rfl⟩ := List.nil_eq_append_iff.1 hnil
      exact ⟨s, [], by simp, by simp, rfl, hw⟩
    | border | lineStart | lineEnd =>
      obtain ⟨hplace, h⟩ := Option.ite_none_right_eq_some.1 h
      obtain ⟨w, after, rfl, rfl, hw⟩ := ih h
      exact ⟨w, after, rfl, rfl, hplace, hw⟩

theorem Takes.isSome_fit (h : Takes pattern before w after) :
    (fit pattern before (w ++ after)).isSome = true := by
  induction pattern generalizing before w with
  | nil => rfl
  | cons piece ps ih =>
    cases piece with
    | one p =>
      obtain ⟨c, v, rfl, hc, hv⟩ := h
      rw [List.cons_append, fit, if_pos hc, Option.isSome_map]
      exact ih hv
    | many p =>
      obtain ⟨u, v, rfl, hu, hv⟩ := h
      rw [List.append_assoc]
      exact isSome_takeMany hu (ih hv)
    | few p =>
      obtain ⟨u, v, rfl, hu, hv⟩ := h
      rw [List.append_assoc]
      exact isSome_takeFew hu (ih hv)
    | rest =>
      obtain ⟨rfl, hrest⟩ := h
      rw [List.append_nil, fit, Option.isSome_map]
      exact ih hrest
    | border | lineStart | lineEnd =>
      rw [fit, if_pos h.1]
      exact ih h.2

theorem fitAny_eq_none_iff : fitAny patterns before s = none ↔
    ∀ p ∈ patterns, ∀ w after, s = w ++ after → ¬Takes p before w after := by
  unfold fitAny
  rw [List.findSome?_eq_none_iff]
  refine forall₂_congr fun p _ => ⟨fun h w after hs htakes => ?_, fun h => ?_⟩
  · have hsome := htakes.isSome_fit
    rw [← hs, h] at hsome
    cases hsome
  · rw [Option.eq_none_iff_forall_ne_some]
    intro n hn
    obtain ⟨w, after, hs, -, htakes⟩ := takes_of_fit hn
    exact h w after hs htakes

theorem takes_of_fitAny (h : fitAny patterns before s = some n) :
    ∃ w after, s = w ++ after ∧ w.length = n ∧ ∃ p ∈ patterns, Takes p before w after := by
  obtain ⟨p, hp, hfit⟩ := List.exists_of_findSome?_eq_some h
  obtain ⟨w, after, hs, hlength, htakes⟩ := takes_of_fit hfit
  exact ⟨w, after, hs, hlength, p, hp, htakes⟩

/-! ## Erasing -/

def Tangible (patterns : List Pattern) : Prop :=
  ∀ p ∈ patterns, ∀ before w after, Takes p before w after → w ≠ []

def isOne : Piece → Bool
  | .one _ => true
  | _ => false

theorem Takes.ne_nil (h : Takes pattern before w after) (hone : pattern.any isOne = true) : w ≠ [] := by
  induction pattern generalizing before w after with
  | nil => cases hone
  | cons piece ps ih =>
    cases piece with
    | one p =>
      obtain ⟨c, v, rfl, -⟩ := h
      exact List.cons_ne_nil c v
    | many p | few p =>
      obtain ⟨u, v, rfl, -, hv⟩ := h
      exact List.append_ne_nil_of_right_ne_nil u (ih hv hone)
    | rest => exact absurd rfl (ih h.2 hone)
    | border | lineStart | lineEnd => exact ih h.2 hone

theorem tangible_of_all (h : patterns.all (·.any isOne) = true) : Tangible patterns :=
  fun p hp _ _ _ htakes => htakes.ne_nil (List.all_eq_true.1 h p hp)

/-- What is kept of a text when patterns are cut out of it, from left to right. -/
inductive Cut (patterns : List Pattern) : Option Char → List Char → List Char → Prop
  | nil {before : Option Char} : Cut patterns before [] []
  | keep {before : Option Char} {c : Char} {s kept : List Char} :
      (∀ p ∈ patterns, ∀ w after, c :: s = w ++ after → ¬Takes p before w after) →
      Cut patterns (some c) s kept → Cut patterns before (c :: s) (c :: kept)
  | cut {before : Option Char} {w s kept : List Char} :
      (∃ p ∈ patterns, Takes p before w s) → w ≠ [] → Cut patterns (behind before w) s kept →
      Cut patterns before (w ++ s) kept

theorem eraseFrom_length (patterns : List Pattern) (before : Option Char) (w s : List Char) :
    eraseFrom patterns w.length before (w ++ s) = eraseFrom patterns 0 (behind before w) s := by
  induction w generalizing before with
  | nil => rfl
  | cons c w ih =>
    rw [List.cons_append, List.length_cons, eraseFrom, ih, behind_cons]

theorem cut_eraseFrom (htangible : Tangible patterns) (before : Option Char) (s : List Char) :
    Cut patterns before s (eraseFrom patterns 0 before s) := by
  -- a cut may skip any part of the text, so the induction is on the length
  induction hlength : s.length using Nat.strongRecOn generalizing before s with
  | _ length ih =>
    subst hlength
    cases s with
    | nil => exact .nil
    | cons c r =>
      rw [eraseFrom]
      cases hfit : fitAny patterns before (c :: r) with
      | none => exact .keep (fitAny_eq_none_iff.1 hfit) (ih _ (Nat.lt_succ_self _) _ r rfl)
      | some n =>
        obtain ⟨w, rest, hs, rfl, p, hp, htakes⟩ := takes_of_fitAny hfit
        have hw := htangible p hp _ _ _ htakes
        cases w with
        | nil => exact absurd rfl hw
        | cons d w =>
          rw [List.cons_append, List.cons.injEq] at hs
          obtain ⟨rfl, rfl⟩ := hs
          change Cut patterns before (c :: w ++ rest)
            (eraseFrom patterns (w.length) (some c) (w ++ rest))
          rw [eraseFrom_length]
          have hshort : rest.length < (c :: (w ++ rest)).length := by
            rw [List.length_cons, List.length_append]
            omega
          refine .cut ⟨p, hp, htakes⟩ hw ?_
          rw [behind_cons]
          exact ih _ hshort _ rest rfl

theorem cut_erase (htangible : Tangible patterns) (s : List Char) : Cut patterns none s (erase patterns s) :=
  cut_eraseFrom htangible none s

theorem Cut.sublist (h : Cut patterns before s kept) : kept.Sublist s := by
  induction h with
  | nil => exact .refl _
  | keep _ _ ih => exact ih.cons_cons _
  | cut _ _ _ ih => exact ih.trans (List.sublist_append_right _ _)

/-- A pattern takes something somewhere in the text. -/
def Occurs (patterns : List Pattern) (s : List Char) : Prop :=
  ∃ a w b, s = a ++ (w ++ b) ∧ ∃ p ∈ patterns, Takes p (behind none a) w b

theorem Cut.eq_iff (htangible : Tangible patterns) (h : Cut patterns before s kept) :
    kept = s ↔ ∀ a w b, s = a ++ (w ++ b) → ∀ p ∈ patterns, ¬Takes p (behind before a) w b := by
  induction h with
  | nil =>
    refine ⟨fun _ a w b hs p hp htakes => htangible p hp _ _ _ htakes ?_, fun _ => rfl⟩
    simp_all
  | @keep before c s kept hnone _ ih =>
    rw [List.cons.injEq, ih]
    constructor
    · rintro ⟨-, h⟩ a w b hs
      cases a with
      | nil => exact fun p hp => hnone p hp w b hs
      | cons d a =>
        rw [List.cons_append, List.cons.injEq] at hs
        obtain ⟨rfl, hs⟩ := hs
        rw [behind_cons]
        exact h a w b hs
    · intro h
      refine ⟨rfl, fun a w b hs => ?_⟩
      have hcons := h (c :: a) w b (by rw [hs, List.cons_append])
      rwa [behind_cons] at hcons
  | @cut before w s kept htakes hw hcut _ =>
    obtain ⟨p, hp, htakes⟩ := htakes
    constructor
    · intro hsame
      have hshort := hcut.sublist.length_le
      have hlong := List.length_pos_iff.2 hw
      rw [hsame, List.length_append] at hshort
      omega
    · intro h
      exact absurd htakes (h [] w s rfl p hp)

theorem erase_eq_self_iff (htangible : Tangible patterns) :
    erase patterns s = s ↔ ¬Occurs patterns s := by
  rw [(cut_erase htangible s).eq_iff htangible]
  constructor
  · rintro h ⟨a, w, b, hs, p, hp, htakes⟩
    exact h a w b hs p hp htakes
  · intro h a w b hs p hp htakes
    exact h ⟨a, w, b, hs, p, hp, htakes⟩

theorem erase_sublist (htangible : Tangible patterns) (s : List Char) :
    (erase patterns s).Sublist s :=
  (cut_erase htangible s).sublist

inductive CutAll : List (List Pattern) → List Char → List Char → Prop
  | nil {s : List Char} : CutAll [] s s
  | cons {patterns : List Pattern} {passes : List (List Pattern)} {s t u : List Char} :
      Cut patterns none s t → CutAll passes t u → CutAll (patterns :: passes) s u

theorem cutAll_foldl_erase {passes : List (List Pattern)} (htangible : ∀ ps ∈ passes, Tangible ps)
    (s : List Char) : CutAll passes s (passes.foldl (fun s ps => erase ps s) s) := by
  induction passes generalizing s with
  | nil => exact .nil
  | cons ps passes ih =>
    rw [List.forall_mem_cons] at htangible
    exact .cons (cut_erase htangible.1 s) (ih htangible.2 (erase ps s))

theorem CutAll.sublist {passes : List (List Pattern)} (h : CutAll passes s t) : t.Sublist s := by
  induction h with
  | nil => exact .refl _
  | cons hcut _ ih => exact ih.trans hcut.sublist

theorem foldl_erase_sublist {passes : List (List Pattern)} (htangible : ∀ ps ∈ passes, Tangible ps)
    (s : List Char) : (passes.foldl (fun s ps => erase ps s) s).Sublist s :=
  (cutAll_foldl_erase htangible s).sublist

/-- Several passes leave a text alone if each of them does: what one of them takes away, none of the
others gives back. -/
theorem foldl_erase_eq_self_iff {passes : List (List Pattern)}
    (htangible : ∀ ps ∈ passes, Tangible ps) :
    passes.foldl (fun s ps => erase ps s) s = s ↔ ∀ ps ∈ passes, ¬Occurs ps s := by
  induction passes with
  | nil => simp
  | cons ps passes ih =>
    rw [List.forall_mem_cons] at htangible
    rw [List.forall_mem_cons, ← ih htangible.2, ← erase_eq_self_iff htangible.1, List.foldl_cons]
    refine ⟨fun h => ?_, fun h => by rw [h.1, h.2]⟩
    have hlater := foldl_erase_sublist htangible.2 (erase ps s)
    rw [h] at hlater
    have hsame : erase ps s = s := ((erase_sublist htangible.1 s).antisymm hlater)
    rw [hsame] at h
    exact ⟨hsame, h⟩

/-! ## Patterns that do not look back -/

def looksBack : Piece → Bool
  | .border | .lineStart => true
  | _ => false

theorem takeMany_congr (h : ∀ b b' s, next b s = next b' s) (b b' : Option Char) (s : List Char) :
    takeMany p next b s = takeMany p next b' s := by
  cases s with
  | nil => exact h b b' []
  | cons c r => rw [takeMany, takeMany, h b b']

theorem takeFew_congr (h : ∀ b b' s, next b s = next b' s) (b b' : Option Char) (s : List Char) :
    takeFew p next b s = takeFew p next b' s := by
  cases s with
  | nil => exact h b b' []
  | cons c r => rw [takeFew, takeFew, h b b']

theorem fit_congr (h : pattern.any looksBack = false) (b b' : Option Char) (s : List Char) :
    fit pattern b s = fit pattern b' s := by
  induction pattern generalizing b b' s with
  | nil => rfl
  | cons piece ps ih =>
    rw [List.any_cons, Bool.or_eq_false_iff] at h
    cases piece with
    | one p =>
      cases s with
      | nil => rfl
      | cons c r => rfl
    | many p => exact takeMany_congr (ih h.2) b b' s
    | few p => exact takeFew_congr (ih h.2) b b' s
    | rest => rw [fit, fit, ih h.2]
    | border | lineStart => cases h.1
    | lineEnd => rw [fit, fit, ih h.2 b b']

theorem fitAny_congr (h : patterns.any (·.any looksBack) = false) (b b' : Option Char)
    (s : List Char) : fitAny patterns b s = fitAny patterns b' s := by
  induction patterns with
  | nil => rfl
  | cons q patterns ih =>
    rw [List.any_cons, Bool.or_eq_false_iff] at h
    unfold fitAny at ih ⊢
    rw [List.findSome?_cons, List.findSome?_cons, fit_congr h.1 b b', ih h.2]

theorem eraseFrom_congr (h : patterns.any (·.any looksBack) = false) (b b' : Option Char)
    (s : List Char) : eraseFrom patterns 0 b s = eraseFrom patterns 0 b' s := by
  cases s with
  | nil => rfl
  | cons c r => rw [eraseFrom, eraseFrom, fitAny_congr h b b']

theorem eraseFrom_append {a : List Char}
    (h : ∀ x y, a = x ++ y → y ≠ [] → fitAny patterns (behind before x) (y ++ s) = none) :
    eraseFrom patterns 0 before (a ++ s) = a ++ eraseFrom patterns 0 (behind before a) s := by
  induction a generalizing before with
  | nil => rfl
  | cons c a ih =>
    have hnow := h [] (c :: a) rfl (by simp)
    rw [behind_nil, List.cons_append] at hnow
    rw [List.cons_append, eraseFrom, hnow, behind_cons, List.cons_append]
    refine congrArg (c :: ·) (ih fun x y hxy hy => ?_)
    have hlater := h (c :: x) y (by rw [hxy, List.cons_append]) hy
    rwa [behind_cons] at hlater

/-- The first occurrence is cut out and the search goes on behind it. -/
theorem erase_append (hback : patterns.any (·.any looksBack) = false) {a : List Char}
    (h : ∀ x y, a = x ++ y → y ≠ [] → fitAny patterns none (y ++ (w ++ s)) = none) (hw : w ≠ [])
    (hfit : fitAny patterns none (w ++ s) = some w.length) :
    erase patterns (a ++ (w ++ s)) = a ++ erase patterns s := by
  unfold erase
  rw [eraseFrom_append fun x y hxy hy => by rw [fitAny_congr hback _ none]; exact h x y hxy hy]
  refine congrArg (a ++ ·) ?_
  cases w with
  | nil => exact absurd rfl hw
  | cons c w =>
    rw [eraseFrom_congr hback _ none, List.cons_append, eraseFrom]
    rw [List.cons_append] at hfit
    rw [hfit]
    change eraseFrom patterns w.length (some c) (w ++ s) = _
    rw [eraseFrom_length, eraseFrom_congr hback]

end Workbench.Pattern
