import Mathlib.Tactic.Common
import Workbench.Text.Lines
import Workbench.Proofs.World.Session

/-!
# Lines that are printed and read again

No line of a text holds anything that ends a line. Such lines, each with a line feed after it, make a
text whose lines they are, and unifying the line ends of that text changes nothing.
-/

namespace Workbench.Text

def Unbroken (s : List Char) : Prop := ∀ c ∈ s, c ≠ '\r' ∧ isLineEnd c = false

theorem unbroken_nil : Unbroken [] := by
  intro c hc
  cases hc

theorem Unbroken.cons {c : Char} {s : List Char} (hc : c ≠ '\r' ∧ isLineEnd c = false)
    (hs : Unbroken s) : Unbroken (c :: s) := by
  intro x hx
  cases hx with
  | head => exact hc
  | tail _ hx => exact hs x hx

theorem Unbroken.reverse {s : List Char} (hs : Unbroken s) : Unbroken s.reverse :=
  fun c hc => hs c (List.mem_reverse.mp hc)

theorem unbroken_of_mem_linesFrom {line s x : List Char} (hline : Unbroken line)
    (hx : x ∈ linesFrom line s) : Unbroken x := by
  fun_induction linesFrom line s with
  | case1 line => simp at hx
  | case2 line => simp at hx; rw [hx]; exact hline.reverse
  | case3 line r ih =>
    cases hx with
    | head => exact hline.reverse
    | tail _ hx => exact ih unbroken_nil hx
  | case4 line c r _ _ ih =>
    cases hx with
    | head => exact hline.reverse
    | tail _ hx => exact ih unbroken_nil hx
  | case5 line c r _ hc ih =>
    refine ih (Unbroken.cons ?_ hline) hx
    simpa using hc

theorem unbroken_of_mem_lines {s l : String} (h : l ∈ lines s) : Unbroken l.toList := by
  obtain ⟨x, hx, rfl⟩ := List.mem_map.mp h
  rw [String.toList_ofList]
  exact unbroken_of_mem_linesFrom unbroken_nil hx

/-! ## Reading printed lines -/

theorem linesFrom_append {l : List Char} (hl : Unbroken l) (line r : List Char) :
    linesFrom line (l ++ '\n' :: r) = (line.reverse ++ l) :: linesFrom [] r := by
  induction l generalizing line with
  | nil => simp [linesFrom, isLineEnd]
  | cons c l ih =>
    obtain ⟨hcr, hend⟩ := hl c List.mem_cons_self
    have hl : Unbroken l := fun x hx => hl x (List.mem_cons_of_mem c hx)
    rw [List.cons_append, linesFrom.eq_3 line c _ (fun _ h _ => hcr h)]
    simp [hcr, hend, ih hl]

theorem lines_printed {ls : List String} (h : ∀ l ∈ ls, Unbroken l.toList) :
    lines (printed ls) = ls := by
  induction ls with
  | nil => rfl
  | cons l ls ih =>
    have hl : Unbroken l.toList := h l List.mem_cons_self
    have hls : lines (printed ls) = ls := ih fun x hx => h x (List.mem_cons_of_mem l hx)
    rw [lines] at hls
    rw [lines, printed_cons, String.toList_append, String.toList_append, List.append_assoc]
    have hcut := linesFrom_append hl [] (printed ls).toList
    rw [show "\n".toList ++ (printed ls).toList = '\n' :: (printed ls).toList from rfl, hcut]
    simp [hls]

theorem unifyNewlines_of_not_mem {s : List Char} (h : '\r' ∉ s) : unifyNewlines s = s := by
  induction s with
  | nil => rfl
  | cons c s ih =>
    have hc : c ≠ '\r' := fun e => h (e ▸ List.mem_cons_self)
    have hs : unifyNewlines s = s := ih fun hs => h (List.mem_cons_of_mem c hs)
    rw [unifyNewlines.eq_3 c s (fun _ h _ => hc h), if_neg hc, hs]

theorem plainNewlines_printed {ls : List String} (h : ∀ l ∈ ls, Unbroken l.toList) :
    plainNewlines (printed ls) = printed ls := by
  have hcr : '\r' ∉ (printed ls).toList := by
    induction ls with
    | nil => simp
    | cons l ls ih =>
      have hl : '\r' ∉ l.toList := fun hc => (h l List.mem_cons_self '\r' hc).1 rfl
      simp [hl, ih fun x hx => h x (List.mem_cons_of_mem l hx)]
  rw [plainNewlines, unifyNewlines_of_not_mem hcr, String.ofList_toList]

/-! ## Lines that are cut -/

theorem linesFrom_cons {c : Char} (hc : c ≠ '\r') (line r : List Char) :
    linesFrom line (c :: r) =
      if isLineEnd c then line.reverse :: linesFrom [] r else linesFrom (c :: line) r := by
  rw [linesFrom.eq_3 line c r (fun _ h _ => hc h)]
  simp [hc]

theorem linesFrom_lineFeed {l : List Char} (hl : '\r' ∉ l) (line r : List Char) :
    linesFrom line (l ++ '\n' :: r) = linesFrom line (l ++ ['\n']) ++ linesFrom [] r := by
  induction l generalizing line with
  | nil => simp [linesFrom, isLineEnd]
  | cons c l ih =>
    have hc : c ≠ '\r' := fun h => hl (h ▸ List.mem_cons_self)
    have hrest : '\r' ∉ l := fun h => hl (List.mem_cons_of_mem c h)
    rw [List.cons_append, List.cons_append, linesFrom_cons hc, linesFrom_cons hc]
    by_cases hend : isLineEnd c = true
    · rw [if_pos hend, if_pos hend, ih hrest]
      rfl
    · rw [if_neg hend, if_neg hend, ih hrest]

/-- A piece of a line is the whole line, or it stands in front of a line end, or behind one. -/
theorem cut_of_mem_linesFrom {l line x : List Char} (hl : '\r' ∉ l)
    (hx : x ∈ linesFrom line (l ++ ['\n'])) :
    (x = line.reverse ++ l ∧ Unbroken l) ∨
      (∃ a c b, isLineEnd c = true ∧ l = a ++ c :: b ∧ x = line.reverse ++ a) ∨
      ∃ a c b, isLineEnd c = true ∧ l = a ++ c :: (x ++ b) := by
  induction l generalizing line with
  | nil =>
    have hx : x = line.reverse := by simpa [linesFrom, isLineEnd] using hx
    exact Or.inl ⟨by rw [hx, List.append_nil], unbroken_nil⟩
  | cons c l ih =>
    have hc : c ≠ '\r' := fun h => hl (h ▸ List.mem_cons_self)
    have hrest : '\r' ∉ l := fun h => hl (List.mem_cons_of_mem c h)
    rw [List.cons_append, linesFrom_cons hc] at hx
    by_cases hend : isLineEnd c = true
    · rw [if_pos hend] at hx
      cases hx with
      | head => exact Or.inr (Or.inl ⟨[], c, l, hend, rfl, (List.append_nil _).symm⟩)
      | tail _ hx =>
        -- the piece lies behind this line end, whatever it is of the rest
        refine Or.inr (Or.inr ?_)
        obtain ⟨rfl, -⟩ | ⟨a, e, b, he, rfl, rfl⟩ | ⟨a, e, b, he, rfl⟩ := ih hrest hx
        · exact ⟨[], c, [], hend, by simp⟩
        · exact ⟨[], c, e :: b, hend, rfl⟩
        · exact ⟨c :: a, e, b, he, rfl⟩
    · rw [if_neg hend] at hx
      obtain ⟨rfl, hl⟩ | ⟨a, e, b, he, rfl, rfl⟩ | ⟨a, e, b, he, rfl⟩ := ih hrest hx
      · exact Or.inl ⟨by simp, .cons ⟨hc, by simpa using hend⟩ hl⟩
      · exact Or.inr (Or.inl ⟨c :: a, e, b, he, rfl, by simp⟩)
      · exact Or.inr (Or.inr ⟨c :: a, e, b, he, rfl⟩)

end Workbench.Text
