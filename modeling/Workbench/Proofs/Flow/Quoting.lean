import Workbench.Flow.Lisp
import Workbench.Flow.Dot

/-!
# Texts between quotes

A quote closes a text unless an odd number of backslashes stands before it. Renderings put a backslash
before each quote of a node's label, and nothing else is done about backslashes; so a label is closed
where it should be exactly if its own backslashes come in pairs wherever that matters.
-/

namespace Workbench.Flow.Quoting

/-! ## Quotes that close -/

/-- Whether a quote after the text is escaped: an odd number of backslashes stands at its end. -/
def escapes (u : List Char) : Bool := (u.reverse.takeWhile (· == '\\')).length % 2 == 1

def Quotes (escaped : Bool) (s : List Char) : Prop := ∀ u v, s = u ++ '"' :: v → escapes u = escaped

/-- Between quotes, the first quote that closes the text is the one behind it. -/
def Sealed (s : List Char) : Prop := Quotes true s ∧ escapes s = false

def Paired (s : List Char) : Prop := Quotes false s ∧ escapes s = false

@[simp] theorem escapes_nil : escapes [] = false := rfl

@[simp] theorem escapes_concat_slash (u : List Char) : escapes (u ++ ['\\']) = !escapes u := by
  simp only [escapes, List.reverse_append, List.reverse_singleton, List.singleton_append,
    List.takeWhile_cons, beq_self_eq_true, if_true, List.length_cons]
  generalize (u.reverse.takeWhile (· == '\\')).length = k
  rcases Nat.mod_two_eq_zero_or_one k with h | h
  · rw [Nat.add_mod, h]; rfl
  · rw [Nat.add_mod, h]; rfl

theorem escapes_concat {c : Char} (hc : c ≠ '\\') (u : List Char) : escapes (u ++ [c]) = false := by
  simp [escapes, hc]

/-- Goes through a text, knowing whether a quote would be escaped. Stops at a quote that is not as
wanted. -/
def scan (escaped : Bool) : Bool → List Char → Option Bool
  | b, [] => some b
  | b, c :: r =>
    if c = '\\' then scan escaped (!b) r
    else if c = '"' ∧ b ≠ escaped then none
    else scan escaped false r

theorem scan_eq_some_iff (escaped e : Bool) (p s : List Char) :
    scan escaped (escapes p) s = some e ↔
      (∀ u v, s = u ++ '"' :: v → escapes (p ++ u) = escaped) ∧ escapes (p ++ s) = e := by
  induction s generalizing p with
  | nil => simp [scan]
  | cons c r ih =>
    -- a quote in what is left has one more character before it
    have hstep : (∀ u v, c :: r = u ++ '"' :: v → escapes (p ++ u) = escaped) ↔
        (c = '"' → escapes p = escaped) ∧
          ∀ u v, r = u ++ '"' :: v → escapes (p ++ [c] ++ u) = escaped := by
      constructor
      · intro h
        refine ⟨fun hc => ?_, fun u v hr => ?_⟩
        · have h0 := h [] r (by rw [hc]; rfl)
          rwa [List.append_nil] at h0
        · have h1 := h (c :: u) v (by rw [hr]; rfl)
          rwa [List.append_assoc, List.singleton_append]
      · intro ⟨h0, h1⟩ u v hr
        cases u with
        | nil =>
          rw [List.append_nil]
          exact h0 (List.cons.inj hr).1
        | cons a u =>
          obtain ⟨rfl, hr'⟩ := List.cons.inj hr
          have h2 := h1 u v hr'
          rwa [List.append_assoc, List.singleton_append] at h2
    have hnext := ih (p ++ [c])
    rw [List.append_assoc, List.singleton_append] at hnext
    rw [scan, hstep, and_assoc, ← hnext]
    by_cases hc : c = '\\'
    · subst hc
      simp
    · rw [if_neg hc, escapes_concat hc]
      by_cases hq : c = '"'
      · by_cases hp : escapes p = escaped
        · simp [hq, hp]
        · simp [hq, hp]
      · simp [hq]

theorem scan_eq_some_false_iff {escaped : Bool} {s : List Char} :
    scan escaped false s = some false ↔ Quotes escaped s ∧ escapes s = false := by
  have h := scan_eq_some_iff escaped false [] s
  rwa [escapes_nil] at h

theorem quotes_iff {escaped : Bool} {s : List Char} :
    Quotes escaped s ↔ ∃ b, scan escaped false s = some b := by
  constructor
  · intro h
    exact ⟨escapes s, (scan_eq_some_iff escaped (escapes s) [] s).2 ⟨h, rfl⟩⟩
  · intro ⟨b, hb⟩
    exact ((scan_eq_some_iff escaped b [] s).1 hb).1

theorem sealed_iff {s : List Char} : Sealed s ↔ scan true false s = some false :=
  scan_eq_some_false_iff.symm

theorem paired_iff {s : List Char} : Paired s ↔ scan false false s = some false :=
  scan_eq_some_false_iff.symm

theorem scan_append (escaped b : Bool) (s t : List Char) :
    scan escaped b (s ++ t) = (scan escaped b s).bind fun b => scan escaped b t := by
  induction s generalizing b with
  | nil => rfl
  | cons c r ih =>
    simp only [List.cons_append, scan, ih]
    split
    · rfl
    · split
      · rfl
      · rfl

/-! ## Reading -/

/-- The text that is meant: a backslash before a quote goes away. The flag tells of a backslash that
was just read. -/
def unescape : Bool → List Char → List Char
  | false, [] => []
  | true, [] => ['\\']
  | false, c :: r => if c = '\\' then unescape true r else c :: unescape false r
  | true, c :: r => (if c = '"' then ['"'] else ['\\', c]) ++ unescape false r

theorem length_unescape {b e : Bool} {s : List Char} (h : scan true b s = some e) :
    (unescape b s).length + s.count '"' = s.length + b.toNat := by
  induction s generalizing b with
  | nil => cases b <;> rfl
  | cons c r ih =>
    rw [scan] at h
    by_cases hc : c = '\\'
    · subst hc
      rw [if_pos rfl] at h
      have hr := ih h
      cases b with
      | false => simpa [unescape] using hr
      | true =>
        simp [unescape] at hr ⊢
        omega
    · rw [if_neg hc] at h
      by_cases hq : c = '"'
      · subst hq
        cases b with
        | false => simp at h
        | true =>
          have hr := ih (by simpa using h)
          simp [unescape] at hr ⊢
          omega
      · have hr := ih (by simpa [hq] using h)
        cases b with
        | false =>
          simp [unescape, hc, hq] at hr ⊢
          omega
        | true =>
          simp [unescape, hq] at hr ⊢
          omega

theorem unescape_of_not_mem {s : List Char} (h : '"' ∉ s) (b : Bool) :
    unescape b s = (if b then ['\\'] else []) ++ s := by
  induction s generalizing b with
  | nil => cases b <;> rfl
  | cons c r ih =>
    have hq : c ≠ '"' := fun hc => h (hc ▸ List.mem_cons_self)
    have hr : '"' ∉ r := fun hr => h (List.mem_cons_of_mem c hr)
    cases b with
    | false =>
      by_cases hc : c = '\\'
      · simp [unescape, hc, ih hr]
      · simp [unescape, hc, ih hr]
    | true => simp [unescape, hq, ih hr]

/-- A text that is written as it stands is read as it stands exactly if it has no quotes. -/
theorem Sealed.unescape_eq_iff {s : List Char} (h : Sealed s) : unescape false s = s ↔ '"' ∉ s := by
  constructor
  · intro he
    have hl := length_unescape (sealed_iff.1 h)
    rw [he] at hl
    exact List.count_eq_zero.1 (by simpa using hl)
  · intro hq
    simpa using unescape_of_not_mem hq false

theorem sealed_of_not_mem {s : List Char} (h : '"' ∉ s) (he : escapes s = false) : Sealed s :=
  ⟨fun u v hs => absurd (hs ▸ by simp) h, he⟩

/-! ## Labels of nodes -/

/-- A way to write characters: a quote gets a backslash, a backslash is written as it is, and so is
any other character, or another one in its place. -/
structure Writes (f : Char → List Char) (seen : Char → Char) : Prop where
  quote : f '"' = ['\\', '"'] ∧ seen '"' = '"'
  slash : f '\\' = ['\\'] ∧ seen '\\' = '\\'
  other : ∀ c, c ≠ '"' → c ≠ '\\' → f c = [seen c] ∧ seen c ≠ '"' ∧ seen c ≠ '\\'

def onOneLine (c : Char) : Char := if c = '\n' then ' ' else c

theorem writes_lisp : Writes Lisp.labelChar onOneLine where
  quote := ⟨rfl, rfl⟩
  slash := ⟨rfl, rfl⟩
  other c hq hs := by
    by_cases hn : c = '\n'
    · subst hn
      decide
    · simp only [onOneLine, if_neg hn]
      refine ⟨?_, hq, hs⟩
      unfold Lisp.labelChar
      split
      · exact absurd rfl hq
      · exact absurd rfl hn
      · rfl

theorem writes_dot : Writes Dot.labelChar id where
  quote := ⟨rfl, rfl⟩
  slash := ⟨rfl, rfl⟩
  other c hq hs := by
    refine ⟨?_, hq, hs⟩
    unfold Dot.labelChar
    split
    · exact absurd rfl hq
    · rfl

section
variable {f : Char → List Char} {seen : Char → Char}

/-- With backslashes before the quotes a text is escaped where it was not before. -/
theorem Writes.scan (hf : Writes f seen) (b : Bool) (s : List Char) :
    scan true b (s.flatMap f) = scan false b s := by
  induction s generalizing b with
  | nil => rfl
  | cons c r ih =>
    rw [List.flatMap_cons]
    by_cases hq : c = '"'
    · subst hq
      rw [hf.quote.1]
      cases b with
      | false => simp [Quoting.scan, ih]
      | true => simp [Quoting.scan]
    · by_cases hs : c = '\\'
      · subst hs
        rw [hf.slash.1]
        simp [Quoting.scan, ih]
      · obtain ⟨hc, hq', hs'⟩ := hf.other c hq hs
        rw [hc]
        simp [Quoting.scan, ih, hq, hs, hq', hs']

theorem Writes.sealed_iff (hf : Writes f seen) (s : List Char) : Sealed (s.flatMap f) ↔ Paired s := by
  rw [Quoting.sealed_iff, paired_iff, hf.scan]

theorem Writes.unescape (hf : Writes f seen) {b : Bool} {s : List Char}
    (h : Quoting.scan false b s = some false) :
    Quoting.unescape b (s.flatMap f) = (if b then ['\\'] else []) ++ s.map seen := by
  induction s generalizing b with
  | nil =>
    cases b with
    | false => rfl
    | true => cases h
  | cons c r ih =>
    rw [List.flatMap_cons, List.map_cons]
    rw [Quoting.scan] at h
    by_cases hs : c = '\\'
    · subst hs
      rw [if_pos rfl] at h
      rw [hf.slash.1, hf.slash.2]
      cases b with
      | false =>
        have hr := ih (b := true) h
        simp [Quoting.unescape, hr]
      | true =>
        have hr := ih (b := false) h
        simp [Quoting.unescape, hr]
    · rw [if_neg hs] at h
      by_cases hq : c = '"'
      · subst hq
        cases b with
        | true => simp at h
        | false =>
          rw [hf.quote.1, hf.quote.2]
          simp [Quoting.unescape, ih (by simpa using h)]
      · obtain ⟨hc, hq', hs'⟩ := hf.other c hq hs
        have hr := ih (by simpa [hq] using h)
        rw [hc]
        cases b with
        | false => simp [Quoting.unescape, hs', hr]
        | true => simp [Quoting.unescape, hq', hr]

end

end Workbench.Flow.Quoting
