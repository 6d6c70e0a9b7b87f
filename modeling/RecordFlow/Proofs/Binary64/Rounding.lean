import RecordFlow.Binary64.Rounding

/-!
# Rounding keeps order

The magnitude of a quotient grows with the quotient (`roundMagnitude_mono`) and a magnitude is that
of its own units (`roundMagnitude_unitsOfMagnitude`), so units grow with the magnitude. The nearest
number of an integer grows with the integer (`rank_ofInt_mono`) and, for integers of 64 bits, its
integer part is one again or `2 ^ 63` (`truncate_ofInt_bounds`).
-/

namespace RecordFlow

/-! ### Rounding to whole numbers -/

theorem roundHalfEven_mul (k : Nat) {den : Nat} (hden : 0 < den) :
    roundHalfEven (k * den) den = k := by
  simp [roundHalfEven, Nat.mul_div_cancel k hden, hden]

theorem roundHalfEven_mono {m n : Nat} (h : m ≤ n) (den : Nat) :
    roundHalfEven m den ≤ roundHalfEven n den := by
  have hquotient : m / den ≤ n / den := Nat.div_le_div_right h
  have hm := Nat.div_add_mod m den
  have hn := Nat.div_add_mod n den
  rcases Nat.lt_or_eq_of_le hquotient with hlt | heq
  · have hupper : roundHalfEven m den ≤ m / den + 1 := by
      simp only [roundHalfEven]
      split <;> omega
    have hlower : n / den ≤ roundHalfEven n den := by
      simp only [roundHalfEven]
      split <;> omega
    omega
  · -- With one quotient the remainders are in order, and so are the decisions.
    rw [heq] at hm
    have hrest : m % den ≤ n % den := by omega
    simp only [roundHalfEven, heq, Bool.or_eq_true, Bool.and_eq_true, decide_eq_true_eq,
      beq_iff_eq]
    split <;> split <;> omega

theorem roundHalfEven_le {m k den : Nat} (hden : 0 < den) (h : m ≤ k * den) :
    roundHalfEven m den ≤ k :=
  roundHalfEven_mul k hden ▸ roundHalfEven_mono h den

theorem le_roundHalfEven {m k den : Nat} (hden : 0 < den) (h : k * den ≤ m) :
    k ≤ roundHalfEven m den := by
  have hmono := roundHalfEven_mono h den
  rwa [roundHalfEven_mul k hden] at hmono

namespace Binary64

/-! ### Magnitudes -/

/-- How far the significand of a quotient is shifted. -/
def shiftOf (quotient : Nat) : Nat :=
  quotient.log2 - 52

theorem roundMagnitude_eq (num den : Nat) : roundMagnitude num den =
    shiftOf (num / den) * 2 ^ 52 + roundHalfEven num (den * 2 ^ shiftOf (num / den)) := rfl

theorem shiftOf_mono {m n : Nat} (h : m ≤ n) : shiftOf m ≤ shiftOf n := by
  by_cases hm : m = 0
  · subst hm
    exact Nat.zero_le _
  · have hlog : m.log2 ≤ n.log2 :=
      (Nat.le_log2 (by omega)).2 (Nat.le_trans (Nat.log2_self_le hm) h)
    exact Nat.sub_le_sub_right hlog 52

theorem lt_two_pow_shiftOf (quotient : Nat) : quotient < 2 ^ (shiftOf quotient + 53) := by
  refine Nat.lt_of_lt_of_le Nat.lt_log2_self (Nat.pow_le_pow_right (by decide) ?_)
  simp only [shiftOf]
  omega

/-- A significand has at most 53 bits, or is the first number with more. -/
theorem roundMagnitude_le (num : Nat) {den : Nat} (hden : 0 < den) :
    roundMagnitude num den ≤ (shiftOf (num / den) + 2) * 2 ^ 52 := by
  have hlog := lt_two_pow_shiftOf (num / den)
  have hnum : num ≤ 2 ^ 53 * (den * 2 ^ shiftOf (num / den)) := by
    have hmul := Nat.le_of_lt (Nat.lt_mul_of_div_lt hlog hden)
    rw [Nat.pow_add] at hmul
    calc num ≤ 2 ^ shiftOf (num / den) * 2 ^ 53 * den := hmul
      _ = 2 ^ 53 * (den * 2 ^ shiftOf (num / den)) := by ac_rfl
  have hround := roundHalfEven_le (Nat.mul_pos hden (Nat.two_pow_pos _)) hnum
  rw [roundMagnitude_eq]
  omega

/-- A shifted significand has 53 bits. -/
theorem le_roundMagnitude {num den : Nat} (hden : 0 < den) (hshift : 0 < shiftOf (num / den)) :
    (shiftOf (num / den) + 1) * 2 ^ 52 ≤ roundMagnitude num den := by
  have hne : num / den ≠ 0 := by
    intro h
    rw [h] at hshift
    exact absurd hshift (by decide)
  have hlog : 2 ^ (shiftOf (num / den) + 52) ≤ num / den := by
    refine Nat.le_trans (Nat.pow_le_pow_right (by decide) ?_) (Nat.log2_self_le hne)
    simp only [shiftOf] at hshift ⊢
    omega
  have hnum : 2 ^ 52 * (den * 2 ^ shiftOf (num / den)) ≤ num := by
    have hmul := (Nat.le_div_iff_mul_le hden).1 hlog
    rw [Nat.pow_add] at hmul
    calc 2 ^ 52 * (den * 2 ^ shiftOf (num / den))
        = 2 ^ shiftOf (num / den) * 2 ^ 52 * den := by ac_rfl
      _ ≤ num := hmul
  have hround := le_roundHalfEven (Nat.mul_pos hden (Nat.two_pow_pos _)) hnum
  rw [roundMagnitude_eq]
  omega

theorem roundMagnitude_mono {m n den : Nat} (hden : 0 < den) (h : m ≤ n) :
    roundMagnitude m den ≤ roundMagnitude n den := by
  have hshift := shiftOf_mono (Nat.div_le_div_right (c := den) h)
  rcases Nat.lt_or_eq_of_le hshift with hlt | heq
  · -- Between different shifts there is a power of two.
    have hupper := roundMagnitude_le m hden
    have hlower : (shiftOf (n / den) + 1) * 2 ^ 52 ≤ roundMagnitude n den :=
      le_roundMagnitude hden (by omega)
    have hmul := Nat.mul_le_mul_right (2 ^ 52)
      (show shiftOf (m / den) + 2 ≤ shiftOf (n / den) + 1 by omega)
    omega
  · rw [roundMagnitude_eq, roundMagnitude_eq, heq]
    exact Nat.add_le_add_left (roundHalfEven_mono h _) _

theorem log2_significand {significand : Nat} (hlow : 2 ^ 52 ≤ significand)
    (hhigh : significand < 2 ^ 53) (shift : Nat) :
    (significand * 2 ^ shift).log2 = 52 + shift := by
  have hpowlow := Nat.mul_le_mul_right (2 ^ shift) hlow
  have hpowhigh := Nat.mul_lt_mul_of_pos_right hhigh (Nat.two_pow_pos shift)
  rw [← Nat.pow_add] at hpowlow hpowhigh
  have hpos := Nat.two_pow_pos (52 + shift)
  rw [Nat.log2_eq_iff (by omega)]
  exact ⟨hpowlow, Nat.lt_of_lt_of_eq hpowhigh (congrArg (2 ^ ·) (by omega))⟩

/-- The units of a magnitude round to it. -/
theorem roundMagnitude_unitsOfMagnitude (magnitude : Nat) :
    roundMagnitude (unitsOfMagnitude magnitude) 1 = magnitude := by
  rw [roundMagnitude_eq, Nat.div_one, Nat.one_mul, unitsOfMagnitude]
  split
  · rename_i h
    have hshift : shiftOf magnitude = 0 := by
      by_cases hm : magnitude = 0
      · subst hm
        rfl
      · have hlog := (Nat.log2_lt hm).2 h
        simp only [shiftOf]
        omega
    rw [hshift]
    simpa using roundHalfEven_mul magnitude Nat.one_pos
  · rename_i h
    have hmod : magnitude % 2 ^ 52 < 2 ^ 52 := Nat.mod_lt _ (by decide)
    have hdiv := Nat.div_add_mod magnitude (2 ^ 52)
    have hpos : 0 < magnitude / 2 ^ 52 := Nat.div_pos (by omega) (by decide)
    generalize magnitude % 2 ^ 52 = fraction at hmod hdiv
    generalize magnitude / 2 ^ 52 = exponent at hdiv hpos
    have hshift : shiftOf ((2 ^ 52 + fraction) * 2 ^ (exponent - 1)) = exponent - 1 := by
      rw [shiftOf, log2_significand (Nat.le_add_right _ _) (by omega), Nat.add_sub_cancel_left]
    rw [hshift, roundHalfEven_mul _ (Nat.two_pow_pos _), ← hdiv]
    omega

theorem unitsOfMagnitude_le_iff {m n : Nat} :
    unitsOfMagnitude m ≤ unitsOfMagnitude n ↔ m ≤ n := by
  have hback : ∀ {m n : Nat}, unitsOfMagnitude m ≤ unitsOfMagnitude n → m ≤ n := by
    intro m n h
    have hmono := roundMagnitude_mono Nat.one_pos h
    rwa [roundMagnitude_unitsOfMagnitude, roundMagnitude_unitsOfMagnitude] at hmono
  constructor
  · exact hback
  · intro h
    rcases Nat.le_total (unitsOfMagnitude m) (unitsOfMagnitude n) with hle | hle
    · exact hle
    · exact Nat.le_of_eq (congrArg unitsOfMagnitude (Nat.le_antisymm h (hback hle)))

/-! ### Patterns and their parts -/

theorem isNaN_of_isFinite {x : Binary64} (h : x.isFinite) : x.isNaN = false := by
  simp only [isFinite, isNaN, decide_eq_true_eq, decide_eq_false_iff_not] at *
  omega

theorem isInfinite_of_isFinite {x : Binary64} (h : x.isFinite) : x.isInfinite = false := by
  simp only [isFinite, isInfinite, decide_eq_true_eq, beq_eq_false_iff_ne] at *
  omega

theorem isFinite_of_not {x : Binary64} (hnan : x.isNaN = false) (hinf : x.isInfinite = false) :
    x.isFinite := by
  simp only [isFinite, isNaN, isInfinite, decide_eq_true_eq, decide_eq_false_iff_not,
    beq_eq_false_iff_ne] at *
  omega

theorem natAbs_rank (x : Binary64) : x.rank.natAbs = x.magnitude := by
  rw [rank]
  split <;> omega

theorem eq_infinity {x : Binary64} (hfinite : ¬ x.isFinite) (hnan : ¬ x.isNaN) :
    x = infinity x.negative := by
  simp only [isFinite, isNaN, decide_eq_true_eq] at hfinite hnan
  have hmagnitude : x.magnitude = infinityMagnitude := by omega
  rw [infinity, ← hmagnitude, ofParts_negative_magnitude]

theorem magnitude_ofParts (negative : Bool) {magnitude : Nat} (h : magnitude < 2 ^ 63) :
    (ofParts negative magnitude).magnitude = magnitude := by
  cases negative <;> simp [ofParts, Binary64.magnitude] <;> omega

theorem negative_ofParts (negative : Bool) {magnitude : Nat} (h : magnitude < 2 ^ 63) :
    (ofParts negative magnitude).negative = negative := by
  cases negative <;> simp [ofParts, Binary64.negative] <;> omega

/-! ### Integers -/

/-- The magnitude of the number nearest to an integer of the given absolute value. -/
def magnitudeOfNat (n : Nat) : Nat :=
  min infinityMagnitude (roundMagnitude (n * unitsPerOne) 1)

theorem magnitudeOfNat_mono {m n : Nat} (h : m ≤ n) : magnitudeOfNat m ≤ magnitudeOfNat n := by
  have hround := roundMagnitude_mono Nat.one_pos (Nat.mul_le_mul_right unitsPerOne h)
  simp only [magnitudeOfNat]
  omega

theorem magnitudeOfNat_le (n : Nat) : magnitudeOfNat n ≤ infinityMagnitude :=
  Nat.min_le_left _ _

theorem magnitude_ofInt (n : Int) : (ofInt n).magnitude = magnitudeOfNat n.natAbs :=
  magnitude_ofParts _ (Nat.lt_of_le_of_lt (magnitudeOfNat_le _) (by decide))

theorem negative_ofInt (n : Int) : (ofInt n).negative = decide (n < 0) :=
  negative_ofParts _ (Nat.lt_of_le_of_lt (magnitudeOfNat_le n.natAbs) (by decide))

theorem isNaN_ofInt (n : Int) : (ofInt n).isNaN = false := by
  rw [isNaN, magnitude_ofInt, decide_eq_false_iff_not, Nat.not_lt]
  exact magnitudeOfNat_le _

theorem rank_ofInt (n : Int) : (ofInt n).rank =
    if n < 0 then -(magnitudeOfNat n.natAbs : Int) else magnitudeOfNat n.natAbs := by
  simp only [rank, magnitude_ofInt, negative_ofInt, decide_eq_true_eq]

/-- The nearest numbers of integers are in the order of the integers. -/
theorem rank_ofInt_mono {m n : Int} (h : m ≤ n) : (ofInt m).rank ≤ (ofInt n).rank := by
  rw [rank_ofInt, rank_ofInt]
  split <;> split
  · have hmono := magnitudeOfNat_mono (show n.natAbs ≤ m.natAbs by omega)
    omega
  · omega
  · omega
  · have hmono := magnitudeOfNat_mono (show m.natAbs ≤ n.natAbs by omega)
    omega

theorem unitsPerOne_pos : 0 < unitsPerOne := by
  decide +kernel

theorem units_mono {x y : Binary64} (h : x.rank ≤ y.rank) : x.units ≤ y.units := by
  have hzero : unitsOfMagnitude 0 = 0 := rfl
  rw [rank, rank] at h
  rw [units, units]
  cases hx : x.negative <;> cases hy : y.negative <;>
    simp only [hx, hy, Bool.false_eq_true, if_true, if_false] at h ⊢
  case false.false =>
    have hle := unitsOfMagnitude_le_iff.2 (show x.magnitude ≤ y.magnitude by omega)
    omega
  case false.true =>
    rw [show x.magnitude = 0 by omega, show y.magnitude = 0 by omega, hzero]
    omega
  case true.false => omega
  case true.true =>
    have hle := unitsOfMagnitude_le_iff.2 (show y.magnitude ≤ x.magnitude by omega)
    omega

/-- Numbers of one rank have one exact value. -/
theorem units_eq_of_rank_eq {x y : Binary64} (h : x.rank = y.rank) : x.units = y.units :=
  Int.le_antisymm (units_mono (Int.le_of_eq h)) (units_mono (Int.le_of_eq h.symm))

theorem truncate_mono {x y : Binary64} (h : x.rank ≤ y.rank) : x.truncate ≤ y.truncate :=
  Int.tdiv_le_tdiv (Int.natCast_pos.2 unitsPerOne_pos) (units_mono h)

theorem truncate_eq_of_rank_eq {x y : Binary64} (h : x.rank = y.rank) :
    x.truncate = y.truncate := by
  rw [truncate, truncate, units_eq_of_rank_eq h]

theorem unitsOfMagnitude_magnitudeOfNat_le {n : Nat} (h : n ≤ 2 ^ 63) :
    unitsOfMagnitude (magnitudeOfNat n) ≤ 2 ^ 63 * unitsPerOne := by
  -- `2 ^ 63` is the number with the empty fraction and the exponent 1086.
  have hexact : unitsOfMagnitude (1086 * 2 ^ 52) = 2 ^ 63 * unitsPerOne := by decide +kernel
  have hround : roundMagnitude (n * unitsPerOne) 1 ≤ 1086 * 2 ^ 52 := by
    rw [← roundMagnitude_unitsOfMagnitude (1086 * 2 ^ 52), hexact]
    exact roundMagnitude_mono Nat.one_pos (Nat.mul_le_mul_right _ h)
  rw [← hexact, unitsOfMagnitude_le_iff]
  exact Nat.le_trans (Nat.min_le_right _ _) hround

/-- The integer part of the number nearest to an integer of 64 bits is on the side of zero of the
integer, and at most `2 ^ 63` away from zero. -/
theorem truncate_ofInt_bounds {n : Int} (hlow : -2 ^ 63 ≤ n) (hhigh : n < 2 ^ 63) :
    (0 ≤ n → 0 ≤ (ofInt n).truncate ∧ (ofInt n).truncate ≤ 2 ^ 63) ∧
    (n < 0 → -2 ^ 63 ≤ (ofInt n).truncate ∧ (ofInt n).truncate ≤ 0) := by
  have hbound := unitsOfMagnitude_magnitudeOfNat_le (show n.natAbs ≤ 2 ^ 63 by omega)
  have hdiv : unitsOfMagnitude (magnitudeOfNat n.natAbs) / unitsPerOne ≤ 2 ^ 63 :=
    Nat.div_le_of_le_mul (Nat.mul_comm _ _ ▸ hbound)
  rw [truncate, units, magnitude_ofInt, negative_ofInt]
  constructor
  · intro h
    rw [decide_eq_false (by omega), if_neg Bool.false_ne_true, ← Int.ofNat_tdiv]
    generalize unitsOfMagnitude _ / unitsPerOne = quotient at hdiv ⊢
    omega
  · intro h
    rw [decide_eq_true h, if_pos rfl, Int.neg_tdiv, ← Int.ofNat_tdiv]
    generalize unitsOfMagnitude _ / unitsPerOne = quotient at hdiv ⊢
    omega

end Binary64

end RecordFlow
