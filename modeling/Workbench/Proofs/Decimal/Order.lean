import Mathlib.Algebra.GroupWithZero.Nat
import Workbench.Decimal.Nearest

/-!
# The order of bit patterns

Of numbers that are not negative the larger one has the larger bit pattern: exponent and significand
stand one behind the other in it, and the significand of a number at the small end has no leading digit
of its own. Sums and products of such numbers are such numbers again.
-/

namespace Workbench.Decimal

open Float.Model
open Float.Model.UnpackedFloat (unpackMantissa unpackExponent unpackSign packComponents
  roundWithAccuracy)

def infinityBits : Nat := 0x7FF * 2 ^ 52

/-- The number is not negative, nor is it no number: its bit pattern is that of the infinite number at
most. -/
def Nonnegative (x : Float) : Prop := x.toBits.toNat ≤ infinityBits

/-! ## Reading bit patterns -/

inductive Pictures (n : Nat) : UnpackedFloat → Prop
  | zero : n = 0 → Pictures n (.zero .positive)
  | finite {m : Nat} {e : Int} {h : 0 < m} : -1074 ≤ e → 2 ^ 52 ≤ m ∨ e = -1074 → m < 2 ^ 53 →
      n = (e + 1074).toNat * 2 ^ 52 + m → n < infinityBits → Pictures n (.finite .positive m e h)
  | infinite : n = infinityBits → Pictures n (.infinity .positive)

theorem toNat_unpackMantissa (b : BitVec 64) :
    (@unpackMantissa .binary64 b).toNat = b.toNat % 2 ^ 52 := by
  simp [unpackMantissa, BitVec.extractLsb]

theorem toNat_unpackExponent (b : BitVec 64) :
    (@unpackExponent .binary64 b).toNat = b.toNat / 2 ^ 52 % 2 ^ 11 := by
  simp [unpackExponent, BitVec.extractLsb, Nat.shiftRight_eq_div_pow]

theorem toNat_unpackSign (b : BitVec 64) :
    (@unpackSign .binary64 b).toNat = b.toNat / 2 ^ 63 % 2 := by
  change (b.extractLsb 63 63).toNat = _
  simp [BitVec.extractLsb, Nat.shiftRight_eq_div_pow]

theorem sign_of_le {b : BitVec 64} (h : b.toNat ≤ infinityBits) :
    UnpackedFloat.Sign.ofBitVec (@unpackSign .binary64 b) = .positive := by
  have hzero : @unpackSign .binary64 b = 0#1 := by
    apply BitVec.eq_of_toNat_eq
    rw [toNat_unpackSign]
    unfold infinityBits at h
    simp only [BitVec.toNat_ofNat]
    omega
  rw [hzero]
  rfl

theorem toNat_append_significand {n : Nat} (top : BitVec n) (m : BitVec 52) :
    (top ++ m).toNat = top.toNat * 2 ^ 52 + m.toNat := by
  rw [BitVec.toNat_append, ← Nat.shiftLeft_add_eq_or_of_lt m.isLt, Nat.shiftLeft_eq]

theorem pictures_unpack {b : BitVec 64} (h : b.toNat ≤ infinityBits) :
    Pictures b.toNat (UnpackedFloat.unpack .binary64 b) := by
  have hmant := toNat_unpackMantissa b
  have hexpo := toNat_unpackExponent b
  have hbias : ((Format.binary64.exponentBias : Nat) : Int) = 1023 := rfl
  have hwidth : ((Format.binary64.mantissaBitsWithoutImplicit : Nat) : Int) = 52 := rfl
  unfold UnpackedFloat.unpack
  dsimp only
  rw [sign_of_le h]
  unfold infinityBits at h
  by_cases htop : @unpackExponent .binary64 b = -1#11
  · have hexponent : (@unpackExponent .binary64 b).toNat = 0x7FF := by rw [htop]; rfl
    have hzero : @unpackMantissa .binary64 b = 0#52 := BitVec.eq_of_toNat_eq (by simp; omega)
    rw [if_pos htop, if_pos hzero]
    exact .infinite (by unfold infinityBits; omega)
  · have hexponent : (@unpackExponent .binary64 b).toNat ≠ 0x7FF :=
      fun he => htop (BitVec.eq_of_toNat_eq he)
    rw [if_neg htop]
    by_cases hsmall : @unpackExponent .binary64 b = 0#11
    · have hexponent : (@unpackExponent .binary64 b).toNat = 0 := by rw [hsmall]; rfl
      rw [if_pos hsmall]
      by_cases hzero : @unpackMantissa .binary64 b = 0#52
      · have hsignificand : (@unpackMantissa .binary64 b).toNat = 0 := by rw [hzero]; rfl
        rw [dif_pos hzero]
        exact .zero (by omega)
      · rw [dif_neg hzero]
        exact .finite (by omega) (by omega) (by omega) (by omega) (by unfold infinityBits; omega)
    · have hexponent : (@unpackExponent .binary64 b).toNat ≠ 0 :=
        fun he => hsmall (BitVec.eq_of_toNat_eq he)
      have hlead : (1#1 ++ @unpackMantissa .binary64 b).toNat =
          1 * 2 ^ 52 + (@unpackMantissa .binary64 b).toNat := toNat_append_significand ..
      rw [if_neg hsmall]
      exact .finite (by omega) (by omega) (by omega) (by omega) (by unfold infinityBits; omega)

/-! ## Comparing -/

theorem compare_of_pictures {m n : Nat} {u v : UnpackedFloat} (hu : Pictures m u)
    (hv : Pictures n v) : u.compare v = some (compare m n) := by
  have hlt (h : m < n) : some Ordering.lt = some (compare m n) :=
    congrArg some (Nat.compare_eq_lt.2 h).symm
  have heq (h : m = n) : some Ordering.eq = some (compare m n) :=
    congrArg some (Nat.compare_eq_eq.2 h).symm
  have hgt (h : n < m) : some Ordering.gt = some (compare m n) :=
    congrArg some (Nat.compare_eq_gt.2 h).symm
  have hpos : 0 < infinityBits := by decide
  cases hu with
  | zero hm =>
    cases hv with
    | zero hn => exact heq (by omega)
    | finite _ _ _ _ _ => exact hlt (by omega)
    | infinite hn => exact hlt (by omega)
  | @finite k e _ _ hlead _ hm _ =>
    cases hv with
    | zero hn => exact hgt (by omega)
    | @finite k' e' _ _ hlead' _ hn _ =>
      change some ((compare e e').then (compare k k')) = _
      -- the larger exponent decides: its significand has the leading digit
      rcases Int.lt_trichotomy e e' with he | rfl | he
      · rw [Int.compare_eq_lt.2 he]
        exact hlt (by omega)
      · rw [Int.compare_eq_eq.2 rfl]
        rcases Nat.lt_trichotomy k k' with hk | rfl | hk
        · rw [Nat.compare_eq_lt.2 hk]
          exact hlt (by omega)
        · rw [Nat.compare_eq_eq.2 rfl]
          exact heq (by omega)
        · rw [Nat.compare_eq_gt.2 hk]
          exact hgt (by omega)
      · rw [Int.compare_eq_gt.2 he]
        exact hgt (by omega)
    | infinite hn => exact hlt (by omega)
  | infinite hm =>
    cases hv with
    | zero hn => exact hgt (by omega)
    | finite _ _ _ _ hless => exact hgt (by omega)
    | infinite hn => exact heq (by omega)

theorem Nonnegative.pictures {x : Float} (h : Nonnegative x) : Pictures x.toBits.toNat x.toModel.unpack :=
  pictures_unpack h

theorem Nonnegative.le_iff {x y : Float} (hx : Nonnegative x) (hy : Nonnegative y) :
    x ≤ y ↔ x.toBits.toNat ≤ y.toBits.toNat := by
  change decide (x.toModel ≤ y.toModel) = true ↔ _
  rw [decide_eq_true_iff]
  change x.toModel.unpack.le y.toModel.unpack = true ↔ _
  unfold UnpackedFloat.le
  rw [compare_of_pictures hx.pictures hy.pictures]
  exact Nat.isLE_compare

theorem Nonnegative.beq_iff {x y : Float} (hx : Nonnegative x) (hy : Nonnegative y) :
    (x == y) = true ↔ x.toBits.toNat = y.toBits.toNat := by
  change x.toModel.unpack.beq y.toModel.unpack = true ↔ _
  unfold UnpackedFloat.beq
  rw [compare_of_pictures hx.pictures hy.pictures, beq_iff_eq, Option.some.injEq]
  exact Nat.compare_eq_eq

/-! ## Packing -/

def HasPlus : UnpackedFloat → Prop
  | .infinity s | .zero s | .finite s _ _ _ => s = .positive
  | .notANumber => False

theorem Pictures.hasPlus {n : Nat} {u : UnpackedFloat} (h : Pictures n u) : HasPlus u := by
  cases h <;> rfl

theorem toNat_packComponents (e : BitVec 11) (m : BitVec 52) :
    (packComponents .binary64 .positive e m).toNat = e.toNat * 2 ^ 52 + m.toNat := by
  have hsign : (0#1 ++ e).toNat = e.toNat := by
    rw [BitVec.toNat_append]
    simp
  change ((0#1 ++ e : BitVec 12) ++ m : BitVec 64).toNat = _
  rw [toNat_append_significand, hsign]

theorem toNat_pack_le {u : UnpackedFloat} (h : HasPlus u) :
    (UnpackedFloat.pack .binary64 u).toNat ≤ infinityBits := by
  cases u with
  | notANumber => exact h.elim
  | infinity s => subst h; decide
  | zero s => subst h; decide
  | finite s m e hm =>
    subst h
    unfold UnpackedFloat.pack infinityBits
    dsimp only
    split
    · decide
    · rename_i hless
      change ¬2 ^ 11 ≤ _ at hless
      split
      · refine Nat.le_trans (Nat.le_of_eq (toNat_packComponents _ _)) ?_
        have hexpo := Nat.mod_le (e + Format.binary64.exponentBias +
          Format.binary64.mantissaBitsWithoutImplicit).toNat (2 ^ 11)
        have hmant := (BitVec.ofNat 52 m).isLt
        change _ % 2 ^ 11 * 2 ^ 52 + (BitVec.ofNat 52 m).toNat ≤ _
        omega
      · refine Nat.le_trans (Nat.le_of_eq (toNat_packComponents _ _)) ?_
        have hmant := (BitVec.ofNat 52 m).isLt
        change 0 * 2 ^ 52 + (BitVec.ofNat 52 m).toNat ≤ _
        omega

theorem nonnegative_pack {u : UnpackedFloat} (h : HasPlus u) : Nonnegative ⟨Float.Model.pack u⟩ :=
  toNat_pack_le h

theorem nonnegative_ofBits {b : UInt64} (h : b.toNat ≤ infinityBits) : Nonnegative (Float.ofBits b) :=
  nonnegative_pack (pictures_unpack h).hasPlus

/-! ## Calculating -/

theorem hasPlus_of_significand (m : Nat) (e : Int) :
    HasPlus (if h : m = 0 then .zero .positive
      else .finite .positive m e (Nat.pos_of_ne_zero h)) := by
  by_cases h : m = 0
  · rw [dif_pos h]
    rfl
  · rw [dif_neg h]
    rfl

theorem hasPlus_roundWithAccuracy (m : Nat) (e : Int) (a : UnpackedFloat.Accuracy) :
    HasPlus (roundWithAccuracy .binary64 .positive m e a) :=
  hasPlus_of_significand ..

theorem hasPlus_add {u v : UnpackedFloat} (hu : HasPlus u) (hv : HasPlus v) :
    HasPlus (u.add .binary64 v) := by
  cases u with
  | notANumber => exact hu.elim
  | infinity s =>
    subst hu
    cases v with
    | notANumber => exact hv.elim
    | infinity s => subst hv; rfl
    | zero _ | finite _ _ _ _ => rfl
  | zero s =>
    subst hu
    cases v with
    | notANumber => exact hv.elim
    | infinity s | zero s | finite s _ _ _ => subst hv; rfl
  | finite s m e _ =>
    subst hu
    cases v with
    | notANumber => exact hv.elim
    | infinity s | zero s => subst hv; rfl
    | finite s m' e' _ =>
      subst hv
      unfold UnpackedFloat.add UnpackedFloat.normalize
      dsimp only
      split
      · rename_i hnegative
        rw [Int.compare_eq_lt] at hnegative
        change ((_ : Nat) : Int) + ((_ : Nat) : Int) < 0 at hnegative
        omega
      · rfl
      · exact hasPlus_roundWithAccuracy ..

theorem hasPlus_mul {u : UnpackedFloat} (hu : HasPlus u) (m : Nat) (e : Int) (hm : 0 < m) :
    HasPlus (u.mul .binary64 (.finite .positive m e hm)) := by
  cases u with
  | notANumber => exact hu.elim
  | infinity s | zero s => subst hu; rfl
  | finite s _ _ _ =>
    subst hu
    exact hasPlus_roundWithAccuracy ..

theorem Nonnegative.add {x y : Float} (hx : Nonnegative x) (hy : Nonnegative y) : Nonnegative (x + y) :=
  nonnegative_pack (hasPlus_add hx.pictures.hasPlus hy.pictures.hasPlus)

/-- Only zero times infinity is no number, so a factor that is neither zero nor infinite will do. -/
theorem Nonnegative.mul {x w : Float} (hx : Nonnegative x) (hzero : 0 < w.toBits.toNat)
    (hfinite : w.toBits.toNat < infinityBits) : Nonnegative (x * w) := by
  have hw : Nonnegative w := Nat.le_of_lt hfinite
  have hpicture := hw.pictures
  suffices h : HasPlus (x.toModel.unpack.mul .binary64 w.toModel.unpack) from nonnegative_pack h
  generalize w.toModel.unpack = v at hpicture ⊢
  cases hpicture with
  | zero h => omega
  | finite _ _ _ _ _ => exact hasPlus_mul hx.pictures.hasPlus ..
  | infinite h => omega

theorem nonnegative_nearest (num den : Nat) : Nonnegative (nearest num den) := by
  unfold nearest
  split
  · change (0.0 : Float).toBits.toNat ≤ infinityBits
    decide +kernel
  · refine nonnegative_ofBits ?_
    rw [UInt64.toNat_ofNat']
    exact Nat.le_trans (Nat.mod_le ..) (Nat.min_le_right ..)

end Workbench.Decimal
