import Mathlib.Tactic.Common
import Workbench.World.Path

/-!
# Parts of names

What follows the last slash of a name is its last part, whatever stands before it. A name below a
folder tells the folder and the last part it was made of.
-/

namespace Workbench

namespace PathName

theorem parts_slash (s t : String) : parts (s ++ "/" ++ t) = parts s ++ parts t := by
  have h : (s ++ "/" ++ t).toList = s.toList ++ '/' :: t.toList := by simp
  unfold parts
  rw [h, List.splitOn_append_cons_self, List.map_append]

theorem parts_of_not_mem {s : String} (h : '/' ∉ s.toList) : parts s = [s] := by
  unfold parts
  rw [List.splitOn_eq_singleton h]
  simp

theorem parts_ne_nil (s : String) : parts s ≠ [] := by
  unfold parts
  simp [List.splitOn_ne_nil]

theorem not_mem_of_mem_splitOn {a : Char} {l p : List Char} (h : p ∈ l.splitOn a) : a ∉ p := by
  induction l generalizing p with
  | nil => simp at h; simp [h]
  | cons c l ih =>
    rw [List.splitOn_cons_eq_if_modifyHead] at h
    split at h
    · cases h with
      | head => simp
      | tail _ h => exact ih h
    · next hc =>
      cases hs : l.splitOn a with
      | nil => exact absurd hs (List.splitOn_ne_nil a l)
      | cons q rest =>
        rw [hs] at h ih
        cases h with
        | head =>
          have hca : a ≠ c := fun e => hc (by simp [e])
          simp [hca, ih List.mem_cons_self]
        | tail _ h => exact ih (List.mem_cons_of_mem q h)

theorem slash_not_mem_of_mem_parts {s p : String} (h : p ∈ parts s) : '/' ∉ p.toList := by
  obtain ⟨l, hl, rfl⟩ := List.mem_map.mp h
  rw [String.toList_ofList]
  exact not_mem_of_mem_splitOn hl

theorem base_eq_getLast (s : String) : base s = (parts s).getLast (parts_ne_nil s) := by
  rw [base, List.getLast?_eq_some_getLast (parts_ne_nil s)]
  rfl

theorem base_slash (s t : String) : base (s ++ "/" ++ t) = base t := by
  rw [base_eq_getLast t, base, parts_slash, List.getLast?_append,
    List.getLast?_eq_some_getLast (parts_ne_nil t)]
  rfl

theorem base_of_not_mem {s : String} (h : '/' ∉ s.toList) : base s = s := by
  rw [base, parts_of_not_mem h]
  rfl

end PathName

/-- The name of parts ends with the last of them, and with a slash before that unless it is the
only thing. -/
theorem Origin.name_concat (origin : Origin) (parts : List String) {last : String} (h : last ≠ "") :
    origin.name (parts ++ [last]) = last ∨
      ∃ front, origin.name (parts ++ [last]) = front ++ "/" ++ last := by
  have hname : origin.name (parts ++ [last]) =
      origin.text ++ String.intercalate "/" (parts ++ [last]) := by
    unfold Origin.name
    apply if_neg
    cases parts with
    | nil => simp [h]
    | cons p parts => rw [String.intercalate_append_of_ne_nil (by simp) (by simp)]; simp [h]
  rw [hname]
  cases parts with
  | nil =>
    cases origin with
    | here => exact .inl (by simp [Origin.text])
    | top => exact .inr ⟨"", by simp [Origin.text]⟩
    | otherTop => exact .inr ⟨"/", by simp [Origin.text]⟩
  | cons p parts =>
    refine .inr ⟨origin.text ++ String.intercalate "/" (p :: parts), ?_⟩
    rw [String.intercalate_append_of_ne_nil (by simp) (by simp)]
    simp [String.append_assoc]

theorem Path.base_child (p : Path) {name : String} (h : name ≠ "") (hslash : '/' ∉ name.toList) :
    PathName.base (p.child name).toString = name := by
  change PathName.base (p.origin.name (p.parts ++ [name])) = name
  rcases Origin.name_concat p.origin p.parts h with h | ⟨front, h⟩
  · rw [h, PathName.base_of_not_mem hslash]
  · rw [h, PathName.base_slash, PathName.base_of_not_mem hslash]

/-! ## Stems and extensions -/

theorem Path.slash_not_mem_name (s : String) : '/' ∉ (Path.ofString s).name.toList := by
  unfold Path.name
  cases h : (Path.ofString s).parts.getLast? with
  | none => simp
  | some p =>
    have hp : p ∈ (Path.ofString s).parts := List.mem_of_getLast? h
    exact PathName.slash_not_mem_of_mem_parts (List.mem_filter.mp hp).1

theorem Path.slash_not_mem_stem {p : Path} (h : '/' ∉ p.name.toList) : '/' ∉ p.stem.toList := by
  unfold Path.stem Path.cut
  rw [String.toList_ofList]
  dsimp only
  split
  · exact fun hm => h (List.mem_of_mem_take hm)
  · exact h

theorem Path.slash_not_mem_suffix {p : Path} (h : '/' ∉ p.name.toList) :
    '/' ∉ p.suffix.toList := by
  unfold Path.suffix Path.cut
  rw [String.toList_ofList]
  dsimp only
  split
  · intro hm
    cases hm with
    | tail _ hm =>
      exact h (List.mem_reverse.mp ((List.takeWhile_subset _) (List.mem_reverse.mp hm)))
  · simp

namespace PathName

/-! ## Names below names -/

def Plain (s : String) : Prop := s.toList.getLast? ≠ none ∧ s.toList.getLast? ≠ some '/'

instance (s : String) : Decidable (Plain s) := inferInstanceAs (Decidable (_ ∧ _))

variable {d d' x x' : String}

theorem Plain.ne_empty (h : Plain d) : d ≠ "" := by
  intro hd
  subst hd
  exact h.1 rfl

theorem join_of_plain (hd : Plain d) (hx : '/' ∉ x.toList) : join d x = d ++ "/" ++ x := by
  unfold join
  rw [if_neg, if_neg]
  · simp [hd.ne_empty, hd.2]
  · exact fun h => hx (List.mem_of_head? h)

theorem toList_slash (d x : String) : (d ++ "/" ++ x).toList = d.toList ++ '/' :: x.toList := by
  simp

theorem plain_of_not_mem (hx : x ≠ "") (hslash : '/' ∉ x.toList) : Plain x :=
  ⟨by simpa using hx, fun h => hslash (List.mem_of_getLast? h)⟩

theorem plain_slash (d : String) (hx : Plain x) : Plain (d ++ "/" ++ x) := by
  have hne : x.toList ≠ [] := by simpa using hx.ne_empty
  have hlast : (d ++ "/" ++ x).toList.getLast? = x.toList.getLast? := by
    rw [toList_slash, List.getLast?_append, List.getLast?_cons_of_ne_nil hne,
      List.getLast?_eq_some_getLast hne]
    rfl
  unfold Plain
  rw [hlast]
  exact hx

theorem folder_slash (hd : Plain d) (hx : '/' ∉ x.toList) : folder (d ++ "/" ++ x) = d := by
  have hhead : (d ++ "/" ++ x).toList.reverse.dropWhile (· != '/') = '/' :: d.toList.reverse := by
    rw [toList_slash]
    simp only [List.reverse_append, List.reverse_cons, List.append_assoc]
    rw [List.dropWhile_append_of_pos]
    · simp
    · intro c hc
      simpa using fun e : c = '/' => hx (e ▸ List.mem_reverse.mp hc)
  have htrim : ('/' :: d.toList.reverse).dropWhile (· == '/') = d.toList.reverse := by
    rw [List.dropWhile_cons_of_pos (by simp)]
    cases hr : d.toList.reverse with
    | nil => rfl
    | cons c l =>
      have hc : d.toList.getLast? = some c := by rw [List.getLast?_eq_head?_reverse, hr]; rfl
      have hne : c ≠ '/' := fun e => hd.2 (by rw [hc, e])
      rw [List.dropWhile_cons_of_neg (by simpa using hne)]
  have hne : d.toList.isEmpty = false := by
    simpa using hd.ne_empty
  unfold folder
  simp only [hhead, List.reverse_reverse, htrim, hne, Bool.false_eq_true, if_false, String.ofList_toList]

theorem slash_inj (hd : Plain d) (hd' : Plain d') (hx : '/' ∉ x.toList) (hx' : '/' ∉ x'.toList)
    (h : d ++ "/" ++ x = d' ++ "/" ++ x') : d = d' ∧ x = x' := by
  constructor
  · rw [← folder_slash hd hx, h, folder_slash hd' hx']
  · rw [← base_of_not_mem hx, ← base_slash d x, h, base_slash, base_of_not_mem hx']

theorem splitName_append (l : List Char) : (splitName l).1 ++ (splitName l).2 = l := by
  unfold splitName
  dsimp only
  generalize hrest : l.dropWhile (· == '.') = rest
  generalize htail : (rest.reverse.takeWhile (· != '.')).reverse = tail
  split
  · next hlt =>
    -- the character before the tail is the point that ended it
    have hsplit : (rest.reverse.dropWhile (· != '.')).reverse ++ tail = rest := by
      rw [← htail, ← List.reverse_append, List.takeWhile_append_dropWhile, List.reverse_reverse]
    cases hdrop : rest.reverse.dropWhile (· != '.') with
    | nil =>
      rw [hdrop] at hsplit
      simp at hsplit
      simp [hsplit] at hlt
    | cons c cs =>
      have hc : c = '.' := by
        have hhead : (rest.reverse.dropWhile (· != '.')).head? = some c := by rw [hdrop]; rfl
        have := List.head?_dropWhile_not (· != '.') rest.reverse
        rw [hhead] at this
        simpa using this
      rw [hdrop, List.reverse_cons, hc, List.append_assoc] at hsplit
      have htake : rest.take (rest.length - tail.length - 1) = cs.reverse := by
        rw [← hsplit]
        exact List.take_left' (by simp; omega)
      rw [htake, List.append_assoc]
      change _ ++ (cs.reverse ++ (['.'] ++ tail)) = l
      rw [hsplit, ← hrest, List.takeWhile_append_dropWhile]
  · exact List.append_nil l

def stem (x : String) : String := String.ofList (splitName x.toList).1

theorem slash_not_mem_stem (hx : '/' ∉ x.toList) : '/' ∉ (stem x).toList := by
  unfold stem
  rw [String.toList_ofList]
  intro h
  rw [← splitName_append x.toList] at hx
  exact hx (List.mem_append_left _ h)

theorem withoutExtension_slash (d : String) (hx : '/' ∉ x.toList) :
    withoutExtension (d ++ "/" ++ x) = d ++ "/" ++ stem x := by
  unfold withoutExtension
  rw [base_slash, base_of_not_mem hx]
  apply String.toList_inj.mp
  rw [String.toList_ofList, toList_slash, toList_slash, stem, String.toList_ofList]
  have hlen : (d ++ "/" ++ x).length - (splitName x.toList).2.length =
      (d.toList ++ '/' :: (splitName x.toList).1).length := by
    rw [← String.length_toList, toList_slash]
    have := congrArg List.length (splitName_append x.toList)
    simp only [List.length_append, List.length_cons] at this ⊢
    omega
  rw [hlen]
  nth_rewrite 2 [← splitName_append x.toList]
  rw [← List.cons_append, ← List.append_assoc, List.take_left']
  rfl

/-! ## Plainest forms -/

theorem mem_simplify {absolute : Bool} {done ps : List String} {p : String}
    (hdone : ∀ q ∈ done, q ≠ "" ∧ '/' ∉ q.toList) (hps : ∀ q ∈ ps, '/' ∉ q.toList)
    (h : p ∈ simplify absolute done ps) : p ≠ "" ∧ '/' ∉ p.toList := by
  induction ps generalizing done with
  | nil => exact hdone p (List.mem_reverse.mp h)
  | cons q ps ih =>
    have hps' : ∀ r ∈ ps, '/' ∉ r.toList := fun r hr => hps r (List.mem_cons_of_mem q hr)
    unfold simplify at h
    split at h
    · exact ih hdone hps' h
    next hq =>
    split at h
    · cases done with
      | nil =>
        refine ih ?_ hps' h
        cases absolute <;> simp
      | cons r done =>
        dsimp only at h
        split at h
        · refine ih ?_ hps' h
          intro s hs
          cases hs with
          | head => simp
          | tail _ hs => exact hdone s hs
        · exact ih (fun s hs => hdone s (List.mem_cons_of_mem r hs)) hps' h
    · refine ih ?_ hps' h
      intro s hs
      cases hs with
      | head => exact ⟨fun e => hq (.inl e), hps q List.mem_cons_self⟩
      | tail _ hs => exact hdone s hs

theorem ofString_of_isAbsolute {s : String} (h : isAbsolute s = true) :
    Origin.ofString s = .top ∨ Origin.ofString s = .otherTop := by
  unfold isAbsolute at h
  unfold Origin.ofString
  cases hs : s.toList with
  | nil => simp [hs] at h
  | cons c l =>
    have hc : c = '/' := by simpa [hs] using h
    subst hc
    rw [List.takeWhile_cons_of_pos (by simp), List.length_cons]
    split <;> simp_all

/-- The plainest form of a name that starts at the top does so too, and has no slash at its end
unless there is nothing else. -/
theorem normal_of_isAbsolute {s : String} (h : isAbsolute s = true) :
    isAbsolute (normal s) = true ∧ (normal s = "/" ∨ normal s = "//" ∨ Plain (normal s)) := by
  unfold normal
  rw [h]
  have hmem : ∀ p ∈ simplify true [] (parts s), p ≠ "" ∧ '/' ∉ p.toList :=
    fun p hp => mem_simplify (by simp) (fun q hq => slash_not_mem_of_mem_parts hq) hp
  generalize simplify true [] (parts s) = ps at hmem
  have hname : (Origin.ofString s).name ps = (Origin.ofString s).text ++ String.intercalate "/" ps := by
    unfold Origin.name
    apply if_neg
    rcases ofString_of_isAbsolute h with h | h <;> simp [h, Origin.text]
  constructor
  · rw [hname]
    rcases ofString_of_isAbsolute h with h | h <;> simp [h, Origin.text, isAbsolute]
  · rcases List.eq_nil_or_concat ps with rfl | ⟨front, last, rfl⟩
    · rw [hname]
      rcases ofString_of_isAbsolute h with h | h <;> simp [h, Origin.text]
    · obtain ⟨hlast, hslash⟩ := hmem last (by simp)
      rw [List.concat_eq_append]
      have hplain := plain_of_not_mem hlast hslash
      rcases Origin.name_concat (Origin.ofString s) front hlast with e | ⟨f, e⟩
      · rw [e]
        exact .inr (.inr hplain)
      · rw [e]
        exact .inr (.inr (plain_slash f hplain))

end PathName

end Workbench
