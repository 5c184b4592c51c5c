import Mathlib.Tactic.Common
import Workbench.Data.JsonReader

/-!
# Numbers as they are written

A number has a sign, digits, and it may have a fraction and an exponent. Such a number is read as what
it says; only a whole number with too many digits is refused.
-/

namespace Workbench.Json

/-! ## Digits -/

structure Numeral where
  chars : List Char
  ne_nil : chars ≠ []
  isDigit : ∀ c ∈ chars, c.isDigit = true

namespace Numeral

def value (n : Numeral) : Nat := n.chars.foldl (fun v c => v * 10 + (c.toNat - 48)) 0

theorem digits_go (l r : List Char) (hl : ∀ c ∈ l, c.isDigit = true)
    (hr : ∀ c, r.head? = some c → c.isDigit = false) (value count : Nat) :
    digits.go value count (l ++ r) =
      (l.foldl (fun v c => v * 10 + (c.toNat - 48)) value, count + l.length, r) := by
  induction l generalizing value count with
  | nil =>
    cases r with
    | nil => rfl
    | cons c r => simp [digits.go, hr c rfl]
  | cons c l ih =>
    have hc := hl c List.mem_cons_self
    rw [List.cons_append, digits.go, if_pos hc, ih fun x hx => hl x (List.mem_cons_of_mem c hx)]
    simp [Nat.add_comm, Nat.add_left_comm]

theorem digits_append (n : Numeral) {r : List Char}
    (hr : ∀ c, r.head? = some c → c.isDigit = false) :
    digits (n.chars ++ r) = (n.value, n.chars.length, r) := by
  cases hn : n.chars with
  | nil => exact absurd hn n.ne_nil
  | cons c l =>
    have hgo := digits_go n.chars r n.isDigit hr 0 0
    rw [hn, Nat.zero_add] at hgo
    rw [value, hn]
    exact hgo

theorem isDigit_head (n : Numeral) {c : Char} {l : List Char} (h : n.chars = c :: l) :
    c.isDigit = true :=
  n.isDigit c (h ▸ List.mem_cons_self)

end Numeral

/-! ## Numbers -/

structure Exponent where
  mark : Char
  isMark : mark = 'e' ∨ mark = 'E'
  -- a sign, if one is written
  sign : Option Bool
  numeral : Numeral

def signText : Option Bool → List Char
  | none => []
  | some true => ['-']
  | some false => ['+']

def Exponent.chars (e : Exponent) : List Char := e.mark :: signText e.sign ++ e.numeral.chars

def Exponent.value (e : Exponent) : Int :=
  if e.sign = some true then -e.numeral.value else e.numeral.value

structure Number where
  negative : Bool
  whole : Numeral
  -- a zero in front stands alone
  proper : whole.chars.head? = some '0' → whole.chars = ['0']
  fraction : Option Numeral
  exponent : Option Exponent

namespace Number

def fractionText : Option Numeral → List Char
  | none => []
  | some f => '.' :: f.chars

def exponentText : Option Exponent → List Char
  | none => []
  | some e => e.chars

def magnitude (n : Number) : List Char :=
  n.whole.chars ++ (fractionText n.fraction ++ exponentText n.exponent)

def chars (n : Number) : List Char := if n.negative then '-' :: n.magnitude else n.magnitude

def value (n : Number) : Value :=
  match n.fraction, n.exponent with
  | none, none => .int (if n.negative then -n.whole.value else n.whole.value)
  | none, some e => .float (scientific n.negative n.whole.value e.value)
  | some f, e => .float (scientific n.negative (n.whole.value * Decimal.tenTo f.chars.length + f.value)
      ((e.map Exponent.value).getD 0 - f.chars.length))

def length (n : Number) : Nat :=
  if n.fraction.isNone ∧ n.exponent.isNone ∧ n.whole.chars ≠ ['0'] then n.whole.chars.length else 0

end Number

theorem Numeral.digits_chars (n : Numeral) : digits n.chars = (n.value, n.chars.length, []) := by
  have h := n.digits_append (r := []) (by simp)
  rwa [List.append_nil] at h

theorem Numeral.ne_sign (n : Numeral) (r : List Char) {c : Char} (hc : c.isDigit = false)
    (l : List Char) : n.chars ++ r ≠ c :: l := by
  intro h
  cases hn : n.chars with
  | nil => exact absurd hn n.ne_nil
  | cons d rest =>
    rw [hn] at h
    cases h
    rw [n.isDigit_head hn] at hc
    cases hc

theorem exponent?_chars (e : Exponent) : exponent? e.chars = some e.value := by
  obtain ⟨mark, hmark, sign, numeral⟩ := e
  have hlength : numeral.chars.length ≠ 0 := by simpa using numeral.ne_nil
  unfold exponent? Exponent.chars Exponent.value
  rw [List.cons_append]
  simp only [hmark, if_true]
  cases sign with
  | none =>
    have hminus : ∀ l, numeral.chars = '-' :: l → False := fun l h =>
      @Numeral.ne_sign numeral [] '-' (by decide) l (by rw [List.append_nil]; exact h)
    have hplus : ∀ l, numeral.chars = '+' :: l → False := fun l h =>
      @Numeral.ne_sign numeral [] '+' (by decide) l (by rw [List.append_nil]; exact h)
    simp [signText, numeral.digits_chars, hlength]
  | some negative => cases negative <;> simp [signText, numeral.digits_chars, hlength]

theorem Exponent.head (e : Exponent) : ∃ l, e.chars = e.mark :: l ∧ e.mark.isDigit = false := by
  refine ⟨_, rfl, ?_⟩
  cases e.isMark with
  | inl h => rw [h]; rfl
  | inr h => rw [h]; rfl

namespace Number

theorem exponent?_exponentText (e : Option Exponent) :
    exponent? (exponentText e) = some ((e.map Exponent.value).getD 0) := by
  cases e with
  | none => rfl
  | some e => exact exponent?_chars e

theorem head_exponentText (e : Option Exponent) (c : Char) (h : (exponentText e).head? = some c) :
    c.isDigit = false := by
  cases e with
  | none => cases h
  | some e =>
    obtain ⟨l, hl, hmark⟩ := e.head
    rw [exponentText, hl] at h
    cases h
    exact hmark

theorem head_rest (f : Option Numeral) (e : Option Exponent) (c : Char)
    (h : (fractionText f ++ exponentText e).head? = some c) : c.isDigit = false := by
  cases f with
  | none => exact head_exponentText e c h
  | some f =>
    cases h
    rfl

theorem digits_magnitude (n : Number) :
    digits n.magnitude =
      (n.whole.value, n.whole.chars.length, fractionText n.fraction ++ exponentText n.exponent) :=
  n.whole.digits_append (head_rest n.fraction n.exponent)

theorem ne_minus_magnitude (n : Number) (l : List Char) : n.magnitude = '-' :: l → False :=
  n.whole.ne_sign _ (by decide) l

theorem head_magnitude (n : Number) : n.magnitude.head? = n.whole.chars.head? := by
  cases hn : n.whole.chars with
  | nil => exact absurd hn n.whole.ne_nil
  | cons c l => simp [magnitude, hn]

theorem head_magnitude_zero (n : Number) : n.magnitude.head? = some '0' ↔ n.whole.chars = ['0'] := by
  rw [head_magnitude]
  exact ⟨n.proper, fun h => by rw [h]; rfl⟩

theorem not_padded (n : Number) :
    ¬(n.whole.chars.length = 0 ∨ 1 < n.whole.chars.length ∧ n.magnitude.head? = some '0') := by
  intro h
  cases h with
  | inl h => exact n.whole.ne_nil (List.length_eq_zero_iff.1 h)
  | inr h =>
    obtain ⟨hlong, hzero⟩ := h
    rw [n.head_magnitude_zero.1 hzero] at hlong
    exact absurd hlong (by decide)

theorem number?_chars (n : Number) : number? n.chars = some n.value := by
  have hminus := n.ne_minus_magnitude
  have hwhole := n.digits_magnitude
  have hpadded := n.not_padded
  unfold number? chars
  obtain ⟨negative, whole, proper, fraction, exponent⟩ := n
  -- what stands behind the whole part decides which number it is; the sign only says which one
  cases fraction with
  | none =>
    cases exponent with
    | none =>
      cases negative <;>
        simp only [hwhole, if_neg hpadded, if_true, Bool.false_eq_true, if_false] <;> rfl
    | some e =>
      have hnil : e.chars = [] → False := List.cons_ne_nil _ _
      have hpoint : ∀ r, e.chars = '.' :: r → False := fun r h => by
        have hmark : e.mark = '.' := List.head_eq_of_cons_eq h
        cases e.isMark with
        | inl hm => rw [hm] at hmark; cases hmark
        | inr hm => rw [hm] at hmark; cases hmark
      cases negative <;>
        simp only [hwhole, if_neg hpadded, if_true, Bool.false_eq_true, if_false, fractionText,
          exponentText, List.nil_append, exponent?_chars] <;> rfl
  | some f =>
    have hplaces := f.digits_append (head_exponentText exponent)
    have hsome : f.chars.length ≠ 0 := by simpa using f.ne_nil
    cases negative <;>
      simp only [hwhole, if_neg hpadded, if_true, Bool.false_eq_true, if_false, fractionText,
        List.cons_append, hplaces, if_neg hsome, exponent?_exponentText] <;> rfl

theorem isTooLong_chars (limits : Limits) (n : Number) :
    isTooLong limits n.chars = isOver limits.digits n.length := by
  have hminus := n.ne_minus_magnitude
  have hwhole := n.digits_magnitude
  have hzero := n.head_magnitude_zero
  have hnone : isOver limits.digits 0 = false := by
    unfold isOver
    cases limits.digits <;> simp
  unfold isTooLong chars length
  obtain ⟨negative, whole, proper, fraction, exponent⟩ := n
  cases fraction with
  | none =>
    cases exponent with
    | none =>
      by_cases h : whole.chars = ['0']
      · cases negative <;> simp [hwhole, hzero, h, hnone]
      · cases negative <;> simp [hwhole, hzero, h, fractionText, exponentText]
    | some e =>
      obtain ⟨mark, hmark, sign, numeral⟩ := e
      cases hn : numeral.chars with
      | nil => exact absurd hn numeral.ne_nil
      | cons d rest =>
        have hd := numeral.isDigit_head hn
        cases hmark with
        | inl h =>
          subst h
          cases negative <;> rcases sign with _ | _ | _ <;> cases rest <;>
            simp [hwhole, fractionText, exponentText, Exponent.chars, signText, hn, hd, hnone]
        | inr h =>
          subst h
          cases negative <;> rcases sign with _ | _ | _ <;> cases rest <;>
            simp [hwhole, fractionText, exponentText, Exponent.chars, signText, hn, hd, hnone]
  | some f =>
    cases hn : f.chars with
    | nil => exact absurd hn f.ne_nil
    | cons d rest =>
      have hd := f.isDigit_head hn
      cases negative <;> simp [hwhole, fractionText, hn, hd, hnone]

theorem isBareChar_of_isDigit {c : Char} (h : c.isDigit = true) : isBareChar c = true := by
  simp [isBareChar, Char.isAlphanum, h]

theorem isBareChar_fractionText (f : Option Numeral) : ∀ c ∈ fractionText f, isBareChar c = true := by
  intro c hc
  cases f with
  | none => cases hc
  | some f =>
    cases hc with
    | head => rfl
    | tail _ hc => exact isBareChar_of_isDigit (f.isDigit c hc)

theorem isBareChar_exponentText (e : Option Exponent) : ∀ c ∈ exponentText e, isBareChar c = true := by
  intro c hc
  cases e with
  | none => cases hc
  | some e =>
    obtain ⟨mark, hmark, sign, numeral⟩ := e
    rw [exponentText, Exponent.chars, List.cons_append, List.mem_cons, List.mem_append] at hc
    obtain hc | hc | hc := hc
    · obtain rfl | rfl := hmark <;> rw [hc] <;> rfl
    · obtain _ | _ | _ := sign
      · cases hc
      · rw [List.mem_singleton.1 hc]
        rfl
      · rw [List.mem_singleton.1 hc]
        rfl
    · exact isBareChar_of_isDigit (numeral.isDigit c hc)

theorem isBareChar_chars (n : Number) : ∀ c ∈ n.chars, isBareChar c = true := by
  intro c hc
  have hmagnitude : c ∈ n.magnitude → isBareChar c = true := fun h => by
    rw [magnitude, List.mem_append, List.mem_append] at h
    obtain h | h | h := h
    · exact isBareChar_of_isDigit (n.whole.isDigit c h)
    · exact isBareChar_fractionText n.fraction c h
    · exact isBareChar_exponentText n.exponent c h
  unfold chars at hc
  cases hn : n.negative with
  | true =>
    rw [hn, if_pos rfl] at hc
    cases hc with
    | head => rfl
    | tail _ hc => exact hmagnitude hc
  | false =>
    rw [hn, if_neg Bool.false_ne_true] at hc
    exact hmagnitude hc

theorem chars_ne (n : Number) {w : List Char} (hw : w.any Char.isDigit = false) : n.chars ≠ w := by
  rintro rfl
  cases hn : n.whole.chars with
  | nil => exact n.whole.ne_nil hn
  | cons c l =>
    have hmem : c ∈ n.chars := by
      unfold chars magnitude
      rw [hn]
      cases n.negative <;> simp
    rw [List.any_eq_false] at hw
    exact hw c hmem (n.whole.isDigit_head hn)

theorem word_chars (limits : Limits) (n : Number) :
    word limits n.chars =
      if isOver limits.digits n.length then .error .tooManyDigits else .ok n.value := by
  unfold word
  rw [if_neg (n.chars_ne rfl), if_neg (n.chars_ne rfl), if_neg (n.chars_ne rfl),
    if_neg (n.chars_ne rfl), if_neg (n.chars_ne rfl), if_neg (n.chars_ne rfl), isTooLong_chars,
    number?_chars]

end Number

end Workbench.Json
