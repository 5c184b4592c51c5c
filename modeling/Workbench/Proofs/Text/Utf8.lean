import Mathlib.Tactic.Common
import Workbench.Text.Utf8

/-!
# Texts come back from their bytes

The bytes of a character lead the reader from the start, through states within a sequence, back to
the start, and the last of them completes the character. So the bytes of a text are read as that
text.
-/

namespace Workbench.Utf8

/-- From a state on, the bytes make up one character, which the last of them completes. -/
inductive Spells (c : Char) : State → Bytes → Prop where
  | last {b s} : step b s = some (some c, .start) → Spells c s [b]
  | more {b s s' r} : step b s = some (none, s') → Spells c s' r → Spells c s (b :: r)

theorem decodeFrom_spells {c : Char} {s : State} {bs : Bytes} (h : Spells c s bs) (position : Nat)
    (seen r : Bytes) :
    ∃ position', decodeFrom position seen s (bs ++ r) =
      (decodeFrom position' [] .start r).map (c :: ·) := by
  induction h generalizing position seen with
  | @last b s hb =>
    refine ⟨position + seen.length + 1, ?_⟩
    cases s <;> simp [decodeFrom, hb]
  | @more b s s' bs hb _ ih =>
    obtain ⟨position', ih⟩ := ih position (b :: seen)
    refine ⟨position', ?_⟩
    cases s <;> simp [decodeFrom, hb, ih]

/-! ## The bytes of a character -/

theorem toNat_ofNat_of_lt {n : Nat} (h : n < 256) : (UInt8.ofNat n).toNat = n := by
  rw [UInt8.toNat_ofNat']
  exact Nat.mod_eq_of_lt h

theorem char_bounds (c : Char) : c.toNat < 0xD800 ∨ 0xDFFF < c.toNat ∧ c.toNat < 0x110000 :=
  c.valid

theorem step_within {need low high bits n : Nat} (hn : n < 64) (hlow : low ≤ 0x80 + n)
    (hhigh : 0x80 + n ≤ high) :
    step (UInt8.ofNat (0x80 + n)) (.within need low high bits) =
      if need ≤ 1 then some (some (Char.ofNat (bits * 64 + n)), .start)
      else some (none, .within (need - 1) 0x80 0xBF (bits * 64 + n)) := by
  have hb : (UInt8.ofNat (0x80 + n)).toNat = 0x80 + n := toNat_ofNat_of_lt (by omega)
  have hmod : (0x80 + n) % 64 = n := by omega
  simp only [step, hb, hmod, hlow, hhigh, and_self, if_true]

theorem step_lead {n : Nat} (h : 0x80 ≤ n) (hn : n < 256) :
    step (UInt8.ofNat n) .start = (lead n).map fun s => (none, s) := by
  have hb : (UInt8.ofNat n).toNat = n := toNat_ofNat_of_lt hn
  simp only [step, hb, if_neg (Nat.not_lt.mpr h)]

theorem spells_encodeChar (c : Char) : Spells c .start (encodeChar c) := by
  have hvalid := char_bounds c
  have hc : Char.ofNat c.toNat = c := c.ofNat_toNat
  unfold encodeChar
  generalize c.toNat = n at hvalid hc
  by_cases h₁ : n < 0x80
  · have hb : (UInt8.ofNat n).toNat = n := toNat_ofNat_of_lt (by omega)
    simp only [h₁, if_true]
    exact .last (by simp only [step, hb, h₁, if_true, hc])
  by_cases h₂ : n < 0x800
  · simp only [h₁, h₂, if_false, if_true]
    have hn : (0xC0 + n / 64 - 0xC0) * 64 + n % 64 = n := by omega
    apply Spells.more
    · rw [step_lead (by omega) (by omega), lead, if_neg (by omega), if_pos (by omega)]
      rfl
    · apply Spells.last
      rw [step_within (by omega) (by omega) (by omega), hn, hc]
      rfl
  by_cases h₃ : n < 0x10000
  · simp only [h₁, h₂, h₃, if_false, if_true]
    have hn : ((0xE0 + n / 4096 - 0xE0) * 64 + n / 64 % 64) * 64 + n % 64 = n := by omega
    have hE0 : (if 0xE0 + n / 4096 = 0xE0 then 0xA0 else 0x80) ≤ 0x80 + n / 64 % 64 := by
      split <;> omega
    have hED : 0x80 + n / 64 % 64 ≤ (if 0xE0 + n / 4096 = 0xED then 0x9F else 0xBF) := by
      split <;> omega
    apply Spells.more
    · rw [step_lead (by omega) (by omega), lead, if_neg (by omega), if_neg (by omega),
        if_pos (by omega)]
      rfl
    apply Spells.more
    · rw [step_within (by omega) hE0 hED, if_neg (by omega)]
    · apply Spells.last
      rw [step_within (by omega) (by omega) (by omega), hn, hc]
      rfl
  · simp only [h₁, h₂, h₃, if_false]
    have hn : (((0xF0 + n / 262144 - 0xF0) * 64 + n / 4096 % 64) * 64 + n / 64 % 64) * 64 + n % 64 =
        n := by omega
    have hF0 : (if 0xF0 + n / 262144 = 0xF0 then 0x90 else 0x80) ≤ 0x80 + n / 4096 % 64 := by
      split <;> omega
    have hF4 : 0x80 + n / 4096 % 64 ≤ (if 0xF0 + n / 262144 = 0xF4 then 0x8F else 0xBF) := by
      split <;> omega
    apply Spells.more
    · rw [step_lead (by omega) (by omega), lead, if_neg (by omega), if_neg (by omega),
        if_neg (by omega), if_pos (by omega)]
      rfl
    apply Spells.more
    · rw [step_within (by omega) hF0 hF4, if_neg (by omega)]
    apply Spells.more
    · rw [step_within (by omega) (by omega) (by omega), if_neg (by omega)]
    · apply Spells.last
      rw [step_within (by omega) (by omega) (by omega), hn, hc]
      rfl

/-! ## Texts -/

theorem decodeFrom_encode (cs : List Char) (position : Nat) :
    decodeFrom position [] .start (cs.flatMap encodeChar) = .ok cs := by
  induction cs generalizing position with
  | nil => rfl
  | cons c cs ih =>
    rw [List.flatMap_cons]
    obtain ⟨position', h⟩ := decodeFrom_spells (spells_encodeChar c) position []
      (cs.flatMap encodeChar)
    rw [h, ih]
    rfl

theorem decode_encode (s : String) : decode (encode s) = .ok s := by
  rw [decode, encode, decodeFrom_encode]
  exact congrArg Except.ok String.ofList_toList

end Workbench.Utf8
