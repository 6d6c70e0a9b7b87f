import Mathlib.Algebra.Order.Floor.Semifield
import Mathlib.Tactic.Linarith
import Mathlib.Tactic.NormNum
import RecordFlow.Proofs.Binary64.Exact
import RecordFlow.Proofs.Binary64.Rational

/-!
# Rounded decimals stay between whole numbers

Whole numbers of at most 53 bits are exact, and rounding keeps order, so a decimal below `2 ^ 53` is
rounded to a number between the same whole numbers (`Binary64.isBetween_ofDecimal`). It keeps its
integer part unless it is rounded up to the next whole number
(`Binary64.truncated_ofDecimal_eq_iff`).
-/

namespace RecordFlow

namespace Decimal

/-- The rational number that a decimal is. -/
def value (d : Decimal) : ℚ :=
  d.digits * 10 ^ d.exponent

variable {d : Decimal}

theorem value_nonneg (d : Decimal) : 0 ≤ d.value :=
  mul_nonneg (Nat.cast_nonneg _) (zpow_nonneg (by norm_num) _)

theorem value_of_nonneg (h : 0 ≤ d.exponent) :
    d.value = (d.digits * 10 ^ d.exponent.toNat : Nat) := by
  have hpow : (10 : ℚ) ^ d.exponent = 10 ^ d.exponent.toNat := by
    rw [← zpow_natCast, Int.toNat_of_nonneg h]
  rw [value, hpow]
  push_cast
  rfl

theorem value_of_neg (h : d.exponent < 0) :
    d.value = (d.digits : ℚ) / (10 ^ (-d.exponent).toNat : Nat) := by
  have hpow : (10 : ℚ) ^ d.exponent = (10 ^ (-d.exponent).toNat)⁻¹ := by
    rw [← zpow_natCast, Int.toNat_of_nonneg (by omega), zpow_neg, inv_inv]
  rw [value, hpow, div_eq_mul_inv]
  push_cast
  rfl

theorem pow_le_value (h : d.digits ≠ 0) : (10 : ℚ) ^ d.exponent ≤ d.value :=
  le_mul_of_one_le_left (zpow_nonneg (by norm_num) _) (Nat.one_le_cast.2 (Nat.pos_of_ne_zero h))

/-- A decimal is less than the power of ten behind its digits. -/
theorem value_lt_pow (d : Decimal) :
    d.value < 10 ^ (d.exponent + (Nat.toDigits 10 d.digits).length) := by
  have hlength : d.digits < 10 ^ (Nat.toDigits 10 d.digits).length :=
    (Nat.length_toDigits_le_iff (by decide) (List.length_pos_iff.2 Nat.toDigits_ne_nil)).1
      (Nat.le_refl _)
  have hcast : (d.digits : ℚ) < 10 ^ (Nat.toDigits 10 d.digits).length := by exact_mod_cast hlength
  rw [zpow_add₀ (by norm_num), zpow_natCast, mul_comm, value]
  exact mul_lt_mul_of_pos_right hcast (zpow_pos (by norm_num) _)

end Decimal

namespace Binary64

/-- The number has this sign and is finite, and its size is between a whole number and the next. -/
structure IsBetween (negative : Bool) (k : Nat) (x : Binary64) : Prop where
  isFinite : x.isFinite
  negative_eq : x.negative = negative
  le_units : k * unitsPerOne ≤ unitsOfMagnitude x.magnitude
  units_le : unitsOfMagnitude x.magnitude ≤ (k + 1) * unitsPerOne

theorem isBetween_zero (negative : Bool) : IsBetween negative 0 (ofParts negative 0) := by
  have hmagnitude : (ofParts negative 0).magnitude = 0 := by cases negative <;> rfl
  have hunits : unitsOfMagnitude (ofParts negative 0).magnitude = 0 := by
    rw [hmagnitude]
    rfl
  refine ⟨?_, ?_, ?_, ?_⟩
  · rw [isFinite, hmagnitude]
    rfl
  · cases negative <;> rfl
  · rw [hunits, Nat.zero_mul]
  · rw [hunits]
    exact Nat.zero_le _

/-- What lies between two whole numbers of at most 53 bits is rounded to something between them. -/
theorem isBetween_ofUnits {num den k : Nat} (negative : Bool) (hden : 0 < den) (hk : k < 2 ^ 53)
    (hlow : k * unitsPerOne * den ≤ num) (hhigh : num ≤ (k + 1) * unitsPerOne * den) :
    IsBetween negative k (ofUnits negative num den) := by
  have hexact {n : Nat} (hn : n ≤ 2 ^ 53) : unitsOfMagnitude (magnitudeOfNat n) = n * unitsPerOne ∧
      magnitudeOfNat n < infinityMagnitude := by
    have h := unitsOfMagnitude_magnitudeOfNat hn (show 0 < 971 by decide)
    rwa [Nat.pow_zero, Nat.mul_one] at h
  have hround (n : Nat) : min infinityMagnitude (roundMagnitude (n * unitsPerOne * den) den) =
      magnitudeOfNat n := by
    have h := roundMagnitude_mul_right (n * unitsPerOne) 1 hden
    rw [Nat.one_mul] at h
    rw [h, magnitudeOfNat]
  have hleft := min_le_min_left infinityMagnitude (roundMagnitude_mono hden hlow)
  have hright := min_le_min_left infinityMagnitude (roundMagnitude_mono hden hhigh)
  rw [hround] at hleft hright
  obtain ⟨hunits, -⟩ := hexact (show k ≤ 2 ^ 53 by omega)
  obtain ⟨hunits', hfinite'⟩ := hexact (show k + 1 ≤ 2 ^ 53 by omega)
  have hfinite := Nat.lt_of_le_of_lt hright hfinite'
  have hlt : min infinityMagnitude (roundMagnitude num den) < 2 ^ 63 :=
    Nat.lt_of_le_of_lt (Nat.min_le_left _ _) (by decide)
  refine ⟨?_, ?_, ?_, ?_⟩ <;> rw [ofUnits]
  · rwa [isFinite, decide_eq_true_eq, magnitude_ofParts _ hlt]
  · rw [negative_ofParts _ hlt]
  · rw [magnitude_ofParts _ hlt, ← hunits]
    exact unitsOfMagnitude_le_iff.2 hleft
  · rw [magnitude_ofParts _ hlt, ← hunits']
    exact unitsOfMagnitude_le_iff.2 hright

/-- A decimal below `2 ^ 53` is rounded to a number between the same whole numbers. -/
theorem isBetween_ofDecimal (negative : Bool) {d : Decimal} (h : d.value < 2 ^ 53) :
    IsBetween negative ⌊d.value⌋₊ (ofDecimal negative d) := by
  have hk : ⌊d.value⌋₊ < 2 ^ 53 := by
    rw [Nat.floor_lt d.value_nonneg]
    exact_mod_cast h
  rw [ofDecimal]
  by_cases hdigits : d.digits = 0
  · have hzero : ⌊d.value⌋₊ = 0 := by simp [Decimal.value, hdigits]
    rw [if_pos hdigits, hzero]
    exact isBetween_zero negative
  have hlarge : ¬ 400 < d.exponent := by
    intro hlarge
    have hpow : (10 : ℚ) ^ (16 : Int) ≤ 10 ^ d.exponent :=
      zpow_le_zpow_right₀ (by norm_num) (by omega)
    have hbound : (2 : ℚ) ^ 53 < 10 ^ (16 : Int) := by norm_num
    have hle := Decimal.pow_le_value hdigits
    linarith
  rw [if_neg hdigits, if_neg hlarge]
  by_cases hsmall : d.exponent + (Nat.toDigits 10 d.digits).length < -400
  · have hzero : ⌊d.value⌋₊ = 0 := by
      rw [Nat.floor_eq_zero]
      exact d.value_lt_pow.trans (zpow_lt_one_of_neg₀ (by norm_num) (by omega))
    rw [if_pos hsmall, hzero]
    exact isBetween_zero negative
  rw [if_neg hsmall]
  by_cases hexponent : 0 ≤ d.exponent
  · rw [if_pos hexponent]
    rw [Decimal.value_of_nonneg hexponent, Nat.floor_natCast] at hk ⊢
    refine isBetween_ofUnits negative Nat.one_pos hk ?_ ?_
    · rw [Nat.mul_one]
    · rw [Nat.mul_one]
      exact Nat.mul_le_mul_right _ (Nat.le_succ _)
  · rw [if_neg hexponent]
    rw [Decimal.value_of_neg (Int.not_le.1 hexponent), Nat.floor_div_natCast,
      Nat.floor_natCast] at hk ⊢
    have hden : 0 < 10 ^ (-d.exponent).toNat := Nat.pow_pos (by decide)
    generalize 10 ^ (-d.exponent).toNat = den at hden hk ⊢
    refine isBetween_ofUnits negative hden hk ?_ ?_
    · rw [Nat.mul_right_comm]
      exact Nat.mul_le_mul_right _ (Nat.div_mul_le_self _ _)
    · rw [Nat.mul_right_comm]
      refine Nat.mul_le_mul_right _ (Nat.le_of_lt ?_)
      exact Nat.lt_mul_of_div_lt (Nat.lt_succ_self _) hden

variable {negative : Bool} {k : Nat} {x : Binary64}

theorem IsBetween.abs_toRat (h : IsBetween negative k x) :
    x.toRat = signed negative |x.toRat| ∧ (k : ℚ) ≤ |x.toRat| ∧ |x.toRat| ≤ k + 1 := by
  have hsize : (0 : ℚ) ≤ unitsOfMagnitude x.magnitude / unitsPerOne :=
    div_nonneg (Nat.cast_nonneg _) unitsPerOne_pos_rat.le
  have habs : |x.toRat| = unitsOfMagnitude x.magnitude / unitsPerOne := by
    rw [toRat_eq_signed, abs_signed _ hsize]
  rw [habs, ← h.negative_eq, le_div_iff₀ unitsPerOne_pos_rat, div_le_iff₀ unitsPerOne_pos_rat]
  refine ⟨toRat_eq_signed x, ?_, ?_⟩
  · exact_mod_cast h.le_units
  · exact_mod_cast h.units_le

/-- A decimal below `2 ^ 53` is rounded to a finite number, which has the integer part of the
decimal unless it is the next whole number. -/
theorem truncated_ofDecimal_eq_iff (negative : Bool) {d : Decimal} (h : d.value < 2 ^ 53) :
    (ofDecimal negative d).isFinite ∧ |(ofDecimal negative d).toRat| ≤ ⌊d.value⌋ + 1 ∧
    (truncated (ofDecimal negative d).toRat = truncated (signed negative d.value) ↔
      |(ofDecimal negative d).toRat| < ⌊d.value⌋ + 1) := by
  have hbetween := isBetween_ofDecimal negative h
  obtain ⟨hsigned, hlow, hhigh⟩ := hbetween.abs_toRat
  rw [natCast_floor_eq_intCast_floor d.value_nonneg] at hlow hhigh
  refine ⟨hbetween.isFinite, hhigh, ?_⟩
  rw [hsigned, abs_signed _ (abs_nonneg _)]
  exact truncated_signed_eq_iff negative d.value_nonneg hlow

end Binary64

end RecordFlow
