import RecordFlow.Binary64.Decimal
import RecordFlow.Proofs.Binary64.Rounding

/-!
# The quotients that round to a magnitude

A magnitude is a significand with a power of two as its weight, and its successor has one more of
the same weight (`unitsOfMagnitude_succ`). Between the two, a quotient goes to the nearer one, and
from half-way to the even one (`roundMagnitude_of_between`). So the quotients that round to a
magnitude are those of its `roundingInterval` (`roundMagnitude_of_mem`).
-/

namespace RecordFlow.Binary64

/-! ### Quotients -/

theorem roundHalfEven_mul_right (num den : Nat) {c : Nat} (hc : 0 < c) :
    roundHalfEven (num * c) (den * c) = roundHalfEven num den := by
  have htwice : 2 * (num * c % (den * c)) = 2 * (num % den) * c := by
    rw [Nat.mul_mod_mul_right, Nat.mul_assoc]
  have hlt : 2 * (num % den) * c < den * c ↔ 2 * (num % den) < den :=
    ⟨Nat.lt_of_mul_lt_mul_right, fun h => Nat.mul_lt_mul_of_pos_right h hc⟩
  have heq : 2 * (num % den) * c = den * c ↔ 2 * (num % den) = den :=
    ⟨Nat.eq_of_mul_eq_mul_right hc, fun h => by rw [h]⟩
  simp only [roundHalfEven, Nat.mul_div_mul_right _ _ hc, htwice, hlt, heq, Bool.beq_eq_decide_eq]

/-- A quotient is rounded alike in every scale. -/
theorem roundMagnitude_mul_right (num den : Nat) {c : Nat} (hc : 0 < c) :
    roundMagnitude (num * c) (den * c) = roundMagnitude num den := by
  have hden (k : Nat) : den * c * 2 ^ k = den * 2 ^ k * c := by ac_rfl
  rw [roundMagnitude_eq, roundMagnitude_eq, Nat.mul_div_mul_right _ _ hc, hden,
    roundHalfEven_mul_right _ _ hc]

/-! ### Significand and weight -/

/-- The significand of a magnitude, its hidden bit included. -/
def significandOf (m : Nat) : Nat :=
  if m < 2 ^ 52 then m else 2 ^ 52 + m % 2 ^ 52

/-- The exponent of the power of two that the last bit of a significand counts. -/
def weightOf (m : Nat) : Nat :=
  m / 2 ^ 52 - 1

theorem unitsOfMagnitude_eq (m : Nat) :
    unitsOfMagnitude m = significandOf m * 2 ^ weightOf m := by
  unfold unitsOfMagnitude significandOf weightOf
  split
  · next h => rw [Nat.div_eq_of_lt h, Nat.zero_sub, Nat.pow_zero, Nat.mul_one]
  · rfl

theorem weightOf_mul_add_significandOf (m : Nat) : weightOf m * 2 ^ 52 + significandOf m = m := by
  unfold significandOf weightOf
  split <;> omega

theorem significandOf_lt (m : Nat) : significandOf m < 2 ^ 53 := by
  unfold significandOf
  split <;> omega

theorem le_significandOf {m : Nat} (h : 0 < weightOf m) : 2 ^ 52 ≤ significandOf m := by
  unfold significandOf weightOf at *
  split <;> omega

/-- The successor of a magnitude has one more of the same weight. -/
theorem unitsOfMagnitude_succ (m : Nat) :
    unitsOfMagnitude (m + 1) = (significandOf m + 1) * 2 ^ weightOf m := by
  by_cases hcarry : significandOf m + 1 = 2 ^ 53
  · -- the significand overflows into the next power of two
    have hsucc : significandOf (m + 1) = 2 ^ 52 ∧ weightOf (m + 1) = weightOf m + 1 := by
      unfold significandOf weightOf at *
      split at hcarry <;> split <;> omega
    rw [unitsOfMagnitude_eq, hsucc.1, hsucc.2, hcarry, Nat.pow_succ 2 (weightOf m),
      Nat.mul_comm (2 ^ weightOf m) 2, ← Nat.mul_assoc, ← Nat.pow_succ]
  · have hlt := significandOf_lt m
    have hsucc : significandOf (m + 1) = significandOf m + 1 ∧ weightOf (m + 1) = weightOf m := by
      unfold significandOf weightOf at *
      split at hcarry <;> split <;> omega
    rw [unitsOfMagnitude_eq, hsucc.1, hsucc.2]

theorem unitsOfMagnitude_lt_succ (m : Nat) : unitsOfMagnitude m < unitsOfMagnitude (m + 1) := by
  rw [unitsOfMagnitude_eq, unitsOfMagnitude_succ]
  exact Nat.mul_lt_mul_of_pos_right (Nat.lt_succ_self _) (Nat.two_pow_pos _)

/-! ### Between neighbours -/

variable {m num den : Nat}

/-- A whole number of units between two neighbours is shifted by their weight. -/
theorem shiftOf_of_between {q : Nat} (hlow : unitsOfMagnitude m ≤ q)
    (hhigh : q < unitsOfMagnitude (m + 1)) : shiftOf q = weightOf m := by
  rw [unitsOfMagnitude_eq] at hlow
  rw [unitsOfMagnitude_succ] at hhigh
  have hupper : q < 2 ^ (53 + weightOf m) := by
    rw [Nat.pow_add]
    exact Nat.lt_of_lt_of_le hhigh (Nat.mul_le_mul_right _ (significandOf_lt m))
  rcases Nat.eq_zero_or_pos (weightOf m) with hzero | hpos
  · rw [hzero] at hupper ⊢
    by_cases hq : q = 0
    · subst hq
      rfl
    · have hlog := (Nat.log2_lt hq).2 hupper
      simp only [shiftOf]
      omega
  · have hlower : 2 ^ (52 + weightOf m) ≤ q := by
      rw [Nat.pow_add]
      exact Nat.le_trans (Nat.mul_le_mul_right _ (le_significandOf hpos)) hlow
    have hq : q ≠ 0 := Nat.ne_of_gt (Nat.lt_of_lt_of_le (Nat.two_pow_pos _) hlower)
    have hlog := (Nat.le_log2 hq).2 hlower
    have hlog' := (Nat.log2_lt hq).2 hupper
    simp only [shiftOf]
    omega

/-- A quotient between two neighbours is rounded to the nearer one, and to the even one from
half-way. -/
theorem roundMagnitude_of_between (hden : 0 < den) (hlow : unitsOfMagnitude m * den ≤ num)
    (hhigh : num < unitsOfMagnitude (m + 1) * den) :
    roundMagnitude num den =
      if 2 * num < (unitsOfMagnitude m + unitsOfMagnitude (m + 1)) * den ∨
        2 * num = (unitsOfMagnitude m + unitsOfMagnitude (m + 1)) * den ∧ m % 2 = 0
      then m else m + 1 := by
  have hshift : shiftOf (num / den) = weightOf m :=
    shiftOf_of_between ((Nat.le_div_iff_mul_le hden).2 hlow) ((Nat.div_lt_iff_lt_mul hden).2 hhigh)
  have hparity := weightOf_mul_add_significandOf m
  rw [unitsOfMagnitude_succ] at hhigh ⊢
  rw [unitsOfMagnitude_eq] at hlow ⊢
  rw [roundMagnitude_eq, hshift, roundHalfEven]
  -- all bounds are multiples of the weight of the last bit
  have hunit : 0 < den * 2 ^ weightOf m := Nat.mul_pos hden (Nat.two_pow_pos _)
  have hmul (k : Nat) : k * 2 ^ weightOf m * den = k * (den * 2 ^ weightOf m) := by ac_rfl
  rw [hmul] at hlow hhigh
  rw [← Nat.add_mul, hmul]
  generalize den * 2 ^ weightOf m = unit at *
  generalize significandOf m = significand at *
  generalize weightOf m = weight at *
  have hquotient : num / unit = significand :=
    Nat.div_eq_of_lt_le hlow hhigh
  have hrest := Nat.div_add_mod num unit
  rw [hquotient] at hrest ⊢
  have hexpand : (significand + (significand + 1)) * unit = 2 * (unit * significand) + unit := by
    rw [Nat.add_mul, Nat.add_mul, Nat.one_mul, Nat.mul_comm unit significand]
    omega
  rw [hexpand]
  generalize unit * significand = floor at *
  simp only [Bool.or_eq_true, Bool.and_eq_true, decide_eq_true_eq, beq_iff_eq]
  split <;> split <;> omega

/-! ### The interval of a magnitude -/

/-- A quotient of units lies between the midpoints to the two neighbours of a magnitude, or on one
of them if the magnitude is even. -/
def InInterval (m num den : Nat) : Prop :=
  if m % 2 = 0 then
    (unitsOfMagnitude (m - 1) + unitsOfMagnitude m) * den ≤ 2 * num ∧
      2 * num ≤ (unitsOfMagnitude m + unitsOfMagnitude (m + 1)) * den
  else
    (unitsOfMagnitude (m - 1) + unitsOfMagnitude m) * den < 2 * num ∧
      2 * num < (unitsOfMagnitude m + unitsOfMagnitude (m + 1)) * den

theorem InInterval.mul_right (h : InInterval m num den) {c : Nat} (hc : 0 < c) :
    InInterval m (num * c) (den * c) := by
  unfold InInterval at *
  simp only [← Nat.mul_assoc]
  split
  · next heven =>
    rw [if_pos heven] at h
    exact ⟨Nat.mul_le_mul_right c h.1, Nat.mul_le_mul_right c h.2⟩
  · next hodd =>
    rw [if_neg hodd] at h
    exact ⟨Nat.mul_lt_mul_of_pos_right h.1 hc, Nat.mul_lt_mul_of_pos_right h.2 hc⟩

/-- What lies in the interval of a positive magnitude is rounded to it. -/
theorem roundMagnitude_of_mem (hm : 0 < m) (hden : 0 < den) (h : InInterval m num den) :
    roundMagnitude num den = m := by
  obtain ⟨k, rfl⟩ : ∃ k, m = k + 1 := ⟨m - 1, by omega⟩
  have hbelow := Nat.mul_lt_mul_of_pos_right (unitsOfMagnitude_lt_succ k) hden
  have habove := Nat.mul_lt_mul_of_pos_right (unitsOfMagnitude_lt_succ (k + 1)) hden
  rw [InInterval, Nat.add_sub_cancel, Nat.add_mul, Nat.add_mul] at h
  by_cases hside : unitsOfMagnitude (k + 1) * den ≤ num
  · have hhigh : num < unitsOfMagnitude (k + 1 + 1) * den := by split at h <;> omega
    rw [roundMagnitude_of_between hden hside hhigh, Nat.add_mul, if_pos]
    split at h <;> omega
  · have hlow : unitsOfMagnitude k * den ≤ num := by split at h <;> omega
    rw [roundMagnitude_of_between hden hlow (Nat.lt_of_not_le hside), Nat.add_mul, if_neg]
    split at h <;> omega

/-- What lies in the interval of a finite number is rounded to its absolute value. -/
theorem ofUnits_eq_abs {x : Binary64} (hfinite : x.isFinite) (hpos : 0 < x.magnitude)
    (hden : 0 < den) (h : InInterval x.magnitude num den) : ofUnits false num den = x.abs := by
  have hle : x.magnitude ≤ infinityMagnitude := Nat.le_of_lt (of_decide_eq_true hfinite)
  rw [ofUnits, roundMagnitude_of_mem hpos hden h, Nat.min_eq_right hle, abs]

end RecordFlow.Binary64
