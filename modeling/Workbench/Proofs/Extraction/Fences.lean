import Workbench.Extraction.Request
import Workbench.Proofs.Extraction.Cleaning

/-!
# Fences

A fence is three backticks with the letters behind them. Cutting out the fences from left to right
brings no new one together: what is left of a row of backticks is shorter than a fence, and in front of
it and behind it stands something else that is kept. So one pass is enough.
-/

namespace Workbench

theorem Text.stripBy_infix {α : Type} (p : α → Bool) (s : List α) : stripBy p s <:+: s := by
  have hend : stripBy p s <+: s.dropWhile p := List.rdropWhile_prefix p _
  exact hend.isInfix.trans (List.dropWhile_suffix p).isInfix

namespace Pattern

variable {p : Char → Bool} {patterns : List Pattern} {before : Option Char} {s : List Char}

theorem foundFrom_eq_nil
    (h : ∀ a w b, s = a ++ (w ++ b) → ∀ p ∈ patterns, ¬Takes p (behind before a) w b) :
    foundFrom patterns 0 before s = [] := by
  induction s generalizing before with
  | nil => rfl
  | cons c s ih =>
    have hnone : fitAny patterns before (c :: s) = none :=
      fitAny_eq_none_iff.2 fun p hp w after hs => h [] w after hs p hp
    rw [foundFrom, hnone]
    refine ih fun a w b hs p hp => ?_
    have hcons := h (c :: a) w b (by rw [hs, List.cons_append]) p hp
    rwa [behind_cons] at hcons

theorem found_eq_nil (h : ¬Occurs patterns s) : found patterns s = [] :=
  foundFrom_eq_nil fun a w b hs p hp htakes => h ⟨a, w, b, hs, p, hp, htakes⟩

theorem fit_many (before : Option Char) (s : List Char) :
    fit [.many p] before s = some (s.takeWhile p).length := by
  induction s generalizing before with
  | nil => rfl
  | cons c s ih =>
    change takeMany p (fit []) before (c :: s) = _
    rw [takeMany]
    cases hc : p c with
    | false => rw [if_neg Bool.false_ne_true, List.takeWhile_cons_of_neg (by simp [hc])]; rfl
    | true =>
      have hrest : takeMany p (fit []) (some c) s = some (s.takeWhile p).length := ih (some c)
      rw [if_pos rfl, hrest, List.takeWhile_cons_of_pos hc]
      rfl

end Pattern

namespace Extraction

open Pattern

variable {c : Char} {s t w after : List Char} {before : Option Char}

def ticks : List Char := ['\x60', '\x60', '\x60']

/-- What is left of a text when its fences are cut out, each with all the letters behind it. -/
inductive Unfenced : List Char → List Char → Prop
  | nil : Unfenced [] []
  | keep {c : Char} {s t : List Char} :
      ¬ticks <+: c :: s → Unfenced s t → Unfenced (c :: s) (c :: t)
  | fence {name s t : List Char} :
      (∀ c ∈ name, c.isAlpha = true) → (∀ c ∈ s.head?, c.isAlpha = false) → Unfenced s t →
      Unfenced (ticks ++ (name ++ s)) t

/-! ## One pass -/

theorem takes_fence :
    Takes fence before w after ↔ ∃ name, w = ticks ++ name ∧ ∀ c ∈ name, c.isAlpha = true := by
  unfold fence
  rw [takes_literal_append]
  simp only [Takes]
  constructor
  · rintro ⟨_, rfl, name, _, rfl, hname, rfl⟩
    exact ⟨name, by rw [List.append_nil]; rfl, hname⟩
  · rintro ⟨name, rfl, hname⟩
    exact ⟨name, rfl, name, [], by simp, hname, rfl⟩

theorem occurs_fence_iff : Occurs [fence] s ↔ ticks <:+: s := by
  unfold Occurs
  simp only [List.mem_singleton, exists_eq_left, takes_fence]
  constructor
  · rintro ⟨a, _, b, rfl, name, rfl, -⟩
    exact ⟨a, name ++ b, by simp⟩
  · rintro ⟨a, b, rfl⟩
    exact ⟨a, ticks, b, by simp, [], by simp, by simp⟩

theorem occurs_ticks_iff : Occurs [literal "```"] s ↔ ticks <:+: s := by
  unfold Occurs
  simp only [List.mem_singleton, exists_eq_left, takes_literal]
  constructor
  · rintro ⟨a, _, b, rfl, rfl⟩
    exact ⟨a, b, List.append_assoc ..⟩
  · rintro ⟨a, b, rfl⟩
    exact ⟨a, ticks, b, by simp, rfl⟩

theorem fitAny_fence (r : List Char) :
    fitAny [fence] none (ticks ++ r) = some (ticks ++ r.takeWhile Char.isAlpha).length := by
  have hfit : fit fence none (ticks ++ r) = (fit [.many Char.isAlpha] (some '\x60') r).map (· + 3) := by
    change ((((fit [.many Char.isAlpha] (some '\x60') r).map (· + 1)).map (· + 1)).map (· + 1)) = _
    simp only [Option.map_map]
    rfl
  unfold fitAny
  rw [List.findSome?_singleton, hfit, fit_many, List.length_append, Nat.add_comm]
  rfl

theorem fitAny_fence_eq_none (h : ¬ticks <+: s) : fitAny [fence] none s = none := by
  rw [fitAny_eq_none_iff]
  simp only [List.mem_singleton, forall_eq, takes_fence]
  rintro _ after rfl ⟨name, rfl, -⟩
  exact h ⟨name ++ after, by simp⟩

theorem unfenced_erase (s : List Char) : Unfenced s (erase [fence] s) := by
  -- a fence takes several characters at once, so the induction is on the length
  induction hlength : s.length using Nat.strongRecOn generalizing s with
  | _ length ih =>
    subst hlength
    by_cases hticks : ticks <+: s
    · obtain ⟨r, rfl⟩ := hticks
      have hcut : erase [fence] (ticks ++ r) = erase [fence] (r.dropWhile Char.isAlpha) := by
        have h := @erase_append [fence] (r.dropWhile Char.isAlpha)
          (ticks ++ r.takeWhile Char.isAlpha) rfl [] (by simp) (by simp [ticks])
        rw [List.append_assoc, List.takeWhile_append_dropWhile] at h
        exact h (fitAny_fence r)
      have hshort : (r.dropWhile Char.isAlpha).length < (ticks ++ r).length := by
        have := (List.dropWhile_sublist Char.isAlpha (l := r)).length_le
        rw [List.length_append]
        simp only [ticks, List.length_cons, List.length_nil]
        omega
      have hend : ∀ c ∈ (r.dropWhile Char.isAlpha).head?, c.isAlpha = false := by
        intro c hc
        have hhead := List.head?_dropWhile_not Char.isAlpha r
        rwa [hc] at hhead
      have hname : ∀ c ∈ r.takeWhile Char.isAlpha, c.isAlpha = true :=
        fun c hc => List.mem_takeWhile_imp hc
      have hfence := Unfenced.fence hname hend (ih _ hshort _ rfl)
      rwa [List.takeWhile_append_dropWhile, ← hcut] at hfence
    · cases s with
      | nil => exact .nil
      | cons c s =>
        have hkeep : erase [fence] (c :: s) = c :: erase [fence] s := by
          unfold erase
          rw [eraseFrom, fitAny_fence_eq_none hticks]
          exact congrArg (c :: ·) (eraseFrom_congr rfl _ _ s)
        rw [hkeep]
        exact .keep hticks (ih _ (Nat.lt_succ_self _) s rfl)

/-- A backtick at the start of what is left stood at the start of the text; there it is a fence, or
what follows it is left as well. -/
theorem Unfenced.of_tick (h : Unfenced s ('\x60' :: t)) :
    ticks <+: s ∨ ∃ r, s = '\x60' :: r ∧ Unfenced r t := by
  cases h with
  | keep _ hrest => exact .inr ⟨_, rfl, hrest⟩
  | fence _ _ _ => exact .inl (List.prefix_append ..)

theorem Unfenced.not_ticks (h : Unfenced s t) : ¬ticks <:+: t := by
  induction h with
  | nil => simp [ticks]
  | @keep c s t hnone hrest ih =>
    rw [List.infix_cons_iff]
    rintro (⟨u, hu⟩ | hlater)
    · cases hu
      -- the two backticks behind the first one stood there already
      obtain ⟨v, rfl⟩ | ⟨r, rfl, hr⟩ := hrest.of_tick
      · exact hnone ⟨'\x60' :: v, rfl⟩
      · obtain ⟨v, rfl⟩ | ⟨r, rfl, -⟩ := hr.of_tick
        · exact hnone ⟨'\x60' :: '\x60' :: v, rfl⟩
        · exact hnone ⟨r, rfl⟩
    · exact ih hlater
  | fence _ _ _ ih => exact ih

/-! ## Good texts -/

theorem erase_ticks (h : ¬ticks <:+: s) : erase [literal "```"] s = s :=
  (erase_eq_self_iff (tangible_of_all rfl)).2 (occurs_ticks_iff.not.2 h)

theorem withoutFences_eq_self (hticks : ¬ticks <:+: s) (hstrip : Text.strip s = s) :
    withoutFences s = s := by
  have hfence : erase [fence] s = s :=
    (erase_eq_self_iff (tangible_of_all rfl)).2 (occurs_fence_iff.not.2 hticks)
  unfold withoutFences
  rw [hfence, erase_ticks hticks, hstrip]

/-- One pass cuts out every fence, with all the letters behind it, and nothing else. Nothing is left for
the second pass to find, nor anywhere in the text that comes of it; and going through that text again
changes nothing. -/
theorem withoutFences_settled (s : List Char) :
    Unfenced s (erase [fence] s) ∧ found [literal "```"] (erase [fence] s) = [] ∧
      withoutFences s = Text.strip (erase [fence] s) ∧ ¬"```".toList <:+: withoutFences s ∧
      withoutFences (withoutFences s) = withoutFences s := by
  have hpass := unfenced_erase s
  have htext : withoutFences s = Text.strip (erase [fence] s) := by
    unfold withoutFences
    rw [erase_ticks hpass.not_ticks]
  have hticks : ¬ticks <:+: withoutFences s := by
    rw [htext]
    exact fun h => hpass.not_ticks (h.trans (Text.stripBy_infix isBlank _))
  have hstrip : Text.strip (withoutFences s) = withoutFences s := by
    rw [htext]
    exact Text.stripBy_stripBy isBlank _
  exact ⟨hpass, found_eq_nil (occurs_ticks_iff.not.2 hpass.not_ticks), htext, hticks,
    withoutFences_eq_self hticks hstrip⟩

/-- A row of five backticks, and a fence between two rows. -/
example : withoutFences "`````x```tex```ab``  ".toList = "``x``".toList := by decide

end Extraction

end Workbench
