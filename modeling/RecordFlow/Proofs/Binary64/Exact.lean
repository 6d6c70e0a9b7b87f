import RecordFlow.Proofs.Binary64.Nearest

/-!
# Products and quotients of exact numbers

A whole number of at most 53 bits times a power of two is a floating-point number, and so are the
powers of ten up to `10 ^ 22`. A product or quotient of two such numbers is the nearest number of
the exact result (`mul_ofInt_powerOfTen`, `div_ofInt_powerOfTen`).

The number nearest to an integer has no fraction (`units_ofInt`), and is the integer if this has at
most 53 bits in front of its zeros (`ofInt_eq_iff_holdsInteger`). Both an integer and a finite
number tell by their exact value what number is nearest to it (`rank_ofInt_eq`, `rank_of_isFinite`).
-/

namespace RecordFlow.Binary64

variable {s k : Nat}

/-! ### Whole numbers -/

theorem unitsOfMagnitude_eq_self (hs : s ≤ 2 ^ 53) : unitsOfMagnitude s = s := by
  rcases Nat.lt_or_eq_of_le hs with hlt | rfl
  · unfold unitsOfMagnitude
    split
    · rfl
    · rw [show s / 2 ^ 52 - 1 = 0 by omega, Nat.pow_zero, Nat.mul_one]
      omega
  · decide

/-- The double of every magnitude is one, be it infinite. -/
theorem exists_unitsOfMagnitude_eq_mul_two (m : Nat) :
    ∃ n, unitsOfMagnitude n = unitsOfMagnitude m * 2 := by
  by_cases hm : m < 2 ^ 52
  · refine ⟨m * 2, ?_⟩
    rw [unitsOfMagnitude_eq_self (by omega), unitsOfMagnitude_eq_self (by omega)]
  · refine ⟨m + 2 ^ 52, ?_⟩
    unfold unitsOfMagnitude
    rw [if_neg (by omega), if_neg hm, Nat.add_mod_right,
      show (m + 2 ^ 52) / 2 ^ 52 - 1 = m / 2 ^ 52 - 1 + 1 by omega,
      Nat.pow_succ 2 (m / 2 ^ 52 - 1), Nat.mul_assoc]

theorem exists_unitsOfMagnitude_eq (hs : s ≤ 2 ^ 53) (k : Nat) :
    ∃ m, unitsOfMagnitude m = s * 2 ^ k := by
  induction k with
  | zero => exact ⟨s, by rw [unitsOfMagnitude_eq_self hs, Nat.pow_zero, Nat.mul_one]⟩
  | succ k ih =>
    obtain ⟨m, hm⟩ := ih
    obtain ⟨n, hn⟩ := exists_unitsOfMagnitude_eq_mul_two m
    exact ⟨n, by rw [hn, hm, Nat.pow_succ, Nat.mul_assoc]⟩

theorem unitsOfMagnitude_infinityMagnitude :
    unitsOfMagnitude infinityMagnitude = 2 ^ 1024 * unitsPerOne := by
  decide +kernel

/-- A whole number below the infinity with at most 53 bits in front of its zeros is exact. -/
theorem unitsOfMagnitude_magnitudeOfNat_of_lt (hs : s ≤ 2 ^ 53) (hlt : s * 2 ^ k < 2 ^ 1024) :
    unitsOfMagnitude (magnitudeOfNat (s * 2 ^ k)) = s * 2 ^ k * unitsPerOne ∧
      magnitudeOfNat (s * 2 ^ k) < infinityMagnitude := by
  obtain ⟨m, hm⟩ := exists_unitsOfMagnitude_eq hs (k + 1074)
  have hsplit (j : Nat) : s * 2 ^ (k + j) = s * 2 ^ k * 2 ^ j := by rw [Nat.pow_add, Nat.mul_assoc]
  rw [hsplit] at hm
  have hvalue : unitsOfMagnitude m = s * 2 ^ k * unitsPerOne := by
    unfold unitsPerOne
    exact hm
  have hfinite : m < infinityMagnitude := by
    refine Nat.lt_of_not_le fun hle => ?_
    have hunits := unitsOfMagnitude_le_iff.2 hle
    rw [unitsOfMagnitude_infinityMagnitude, hvalue] at hunits
    exact Nat.not_lt.2 hunits (Nat.mul_lt_mul_of_pos_right hlt unitsPerOne_pos)
  have hround : magnitudeOfNat (s * 2 ^ k) = m := by
    rw [magnitudeOfNat, ← hvalue, roundMagnitude_unitsOfMagnitude,
      Nat.min_eq_right (Nat.le_of_lt hfinite)]
  rw [hround]
  exact ⟨hvalue, hfinite⟩

theorem mul_two_pow_lt (hs : s ≤ 2 ^ 53) (hk : k < 971) : s * 2 ^ k < 2 ^ 1024 := by
  have hpow {m n : Nat} (h : m < n) : 2 ^ m < 2 ^ n := Nat.pow_lt_pow_right Nat.one_lt_two h
  have hle : s * 2 ^ k ≤ 2 ^ (53 + k) := by
    rw [Nat.pow_add]
    exact Nat.mul_le_mul_right _ hs
  exact Nat.lt_of_le_of_lt hle (hpow (show 53 + k < 1024 by omega))

theorem unitsOfMagnitude_magnitudeOfNat (hs : s ≤ 2 ^ 53) (hk : k < 971) :
    unitsOfMagnitude (magnitudeOfNat (s * 2 ^ k)) = s * 2 ^ k * unitsPerOne ∧
      magnitudeOfNat (s * 2 ^ k) < infinityMagnitude :=
  unitsOfMagnitude_magnitudeOfNat_of_lt hs (mul_two_pow_lt hs hk)

/-! ### Products and quotients -/

theorem natAbs_units (x : Binary64) : x.units.natAbs = unitsOfMagnitude x.magnitude := by
  unfold units
  split <;> omega

theorem mul_eq_ofUnits {x y : Binary64} (hx : x.isFinite) (hy : y.isFinite) :
    x.mul y = ofUnits (x.negative != y.negative)
      (unitsOfMagnitude x.magnitude * unitsOfMagnitude y.magnitude) unitsPerOne := by
  simp [mul, isNaN_of_isFinite, isInfinite_of_isFinite, hx, hy, natAbs_units]

theorem div_eq_ofUnits {x y : Binary64} (hx : x.isFinite) (hy : y.isFinite) (hzero : ¬ y.isZero) :
    x.div y = ofUnits (x.negative != y.negative)
      (unitsOfMagnitude x.magnitude * unitsPerOne) (unitsOfMagnitude y.magnitude) := by
  simp [div, isNaN_of_isFinite, isInfinite_of_isFinite, hx, hy, hzero, natAbs_units]

theorem powerOfTen_eq_ofInt (k : Nat) : powerOfTen k = ofInt (10 ^ k : Nat) := by
  rw [powerOfTen, ofInt, Int.natAbs_natCast, decide_eq_false (Int.not_lt.2 (Int.natCast_nonneg _))]

theorem negative_ofInt_natCast (n : Nat) : (ofInt n).negative = false := by
  rw [negative_ofInt, decide_eq_false_iff_not]
  omega

/-- The parts of a whole number of at most 53 bits. -/
theorem ofInt_exact (hs : s ≤ 2 ^ 53) : (ofInt s).isFinite ∧
    unitsOfMagnitude (ofInt s).magnitude = s * unitsPerOne := by
  have hexact := unitsOfMagnitude_magnitudeOfNat hs (show 0 < 971 by decide)
  rw [Nat.pow_zero, Nat.mul_one] at hexact
  rw [isFinite, decide_eq_true_eq, magnitude_ofInt, Int.natAbs_natCast]
  exact ⟨hexact.2, hexact.1⟩

/-- The parts of a power of ten whose odd factor has at most 53 bits. -/
theorem powerOfTen_exact (hk : k ≤ 22) : (powerOfTen k).isFinite ∧
    unitsOfMagnitude (powerOfTen k).magnitude = 10 ^ k * unitsPerOne := by
  have hfive : 5 ^ k ≤ 2 ^ 53 :=
    Nat.le_trans (Nat.pow_le_pow_right (by decide) hk) (by decide)
  have hexact := unitsOfMagnitude_magnitudeOfNat hfive (show k < 971 by omega)
  rw [← Nat.mul_pow] at hexact
  rw [powerOfTen_eq_ofInt, isFinite, decide_eq_true_eq, magnitude_ofInt, Int.natAbs_natCast]
  exact ⟨hexact.2, hexact.1⟩

theorem mul_ofInt_powerOfTen (hs : s ≤ 2 ^ 53) (hk : k ≤ 22) :
    (ofInt s).mul (powerOfTen k) = ofUnits false (s * 10 ^ k * unitsPerOne) 1 := by
  obtain ⟨hfinite, hunits⟩ := ofInt_exact hs
  obtain ⟨hfinite', hunits'⟩ := powerOfTen_exact hk
  have hscale (unit : Nat) : s * unit * (10 ^ k * unit) = s * 10 ^ k * unit * unit := by ac_rfl
  rw [mul_eq_ofUnits hfinite hfinite', hunits, hunits', powerOfTen_eq_ofInt, negative_ofInt_natCast,
    negative_ofInt_natCast, hscale, ofUnits, ofUnits]
  have hround := roundMagnitude_mul_right (s * 10 ^ k * unitsPerOne) 1 unitsPerOne_pos
  rw [Nat.one_mul] at hround
  rw [hround]
  rfl

theorem div_ofInt_powerOfTen (hs : s ≤ 2 ^ 53) (hk : k ≤ 22) :
    (ofInt s).div (powerOfTen k) = ofUnits false (s * unitsPerOne) (10 ^ k) := by
  obtain ⟨hfinite, hunits⟩ := ofInt_exact hs
  obtain ⟨hfinite', hunits'⟩ := powerOfTen_exact hk
  have hzero : ¬ (powerOfTen k).isZero := by
    intro h
    rw [isZero, beq_iff_eq] at h
    rw [h] at hunits'
    exact absurd hunits' (Nat.ne_of_lt (Nat.mul_pos (Nat.pow_pos (by decide)) unitsPerOne_pos))
  rw [div_eq_ofUnits hfinite hfinite' hzero, hunits, hunits', powerOfTen_eq_ofInt,
    negative_ofInt_natCast, negative_ofInt_natCast, ofUnits, ofUnits,
    roundMagnitude_mul_right _ _ unitsPerOne_pos]
  rfl

/-! ### Nearest numbers of integers -/

theorem le_weightOf {m k : Nat} (h : (k + 1) * 2 ^ 52 ≤ m) : k ≤ weightOf m := by
  unfold weightOf
  omega

theorem pow_dvd_unitsOfMagnitude {m k : Nat} (h : k ≤ weightOf m) :
    2 ^ k ∣ unitsOfMagnitude m := by
  rw [unitsOfMagnitude_eq]
  exact Nat.dvd_mul_left_of_dvd (Nat.pow_dvd_pow 2 h) _

/-- The number nearest to a whole number is one, be it infinite. -/
theorem unitsPerOne_dvd_unitsOfMagnitude (n : Nat) :
    unitsPerOne ∣ unitsOfMagnitude (magnitudeOfNat n) := by
  rcases Nat.le_total infinityMagnitude (roundMagnitude (n * unitsPerOne) 1) with hinf | hfin
  · rw [magnitudeOfNat, Nat.min_eq_left hinf, unitsOfMagnitude_infinityMagnitude]
    exact Nat.dvd_mul_left _ _
  rw [magnitudeOfNat, Nat.min_eq_right hfin]
  rcases Nat.le_total (shiftOf (n * unitsPerOne)) 1074 with hshift | hshift
  · -- The last bit counts at most one, so nothing is rounded.
    have hsplit : n * unitsPerOne =
        n * 2 ^ (1074 - shiftOf (n * unitsPerOne)) * 2 ^ shiftOf (n * unitsPerOne) := by
      rw [Nat.mul_assoc, ← Nat.pow_add, Nat.sub_add_cancel hshift, unitsPerOne]
    have hlog := lt_two_pow_shiftOf (n * unitsPerOne)
    rw [Nat.add_comm, Nat.pow_add] at hlog
    have hsignificand : n * 2 ^ (1074 - shiftOf (n * unitsPerOne)) ≤ 2 ^ 53 :=
      Nat.le_of_lt (Nat.lt_of_mul_lt_mul_right (lt_of_eq_of_lt hsplit.symm hlog))
    obtain ⟨m, hm⟩ := exists_unitsOfMagnitude_eq hsignificand (shiftOf (n * unitsPerOne))
    rw [← hsplit] at hm
    rw [← hm, roundMagnitude_unitsOfMagnitude, hm]
    exact Nat.dvd_mul_left _ _
  · -- The last bit counts a whole number.
    have hpos : 0 < shiftOf (n * unitsPerOne / 1) := by
      rw [Nat.div_one]
      omega
    have hround := le_roundMagnitude Nat.one_pos hpos
    rw [Nat.div_one] at hround
    have hweight := Nat.le_trans hshift (le_weightOf hround)
    exact pow_dvd_unitsOfMagnitude hweight

/-- The number nearest to an integer has no fraction. -/
theorem units_ofInt (n : Int) : (ofInt n).units = (ofInt n).truncate * unitsPerOne := by
  have hdvd : (unitsPerOne : Int) ∣ (ofInt n).units := by
    rw [← Int.natAbs_dvd_natAbs, natAbs_units, magnitude_ofInt, Int.natAbs_natCast]
    exact unitsPerOne_dvd_unitsOfMagnitude _
  exact (Int.tdiv_mul_cancel hdvd).symm

/-- The integer has at most 53 bits in front of its zeros and 1024 bits in all. -/
def HoldsInteger (n : Int) : Prop :=
  n.natAbs < 2 ^ 1024 ∧ ∃ s k, s < 2 ^ 53 ∧ n.natAbs = s * 2 ^ k

theorem holdsInteger_mul_two_pow (hs : s < 2 ^ 53) (hk : k < 971) :
    HoldsInteger (s * 2 ^ k : Nat) := by
  rw [HoldsInteger, Int.natAbs_natCast]
  exact ⟨mul_two_pow_lt (Nat.le_of_lt hs) hk, s, k, hs, rfl⟩

/-- Powers of two move from one side to the other without more bits in front of the zeros. -/
theorem exists_significand {w n e : Nat} (hs : s < 2 ^ 53) (h : s * 2 ^ w = n * 2 ^ e) :
    ∃ s' k, s' < 2 ^ 53 ∧ n = s' * 2 ^ k := by
  rcases Nat.le_total e w with hle | hle
  · refine ⟨s, w - e, hs, ?_⟩
    rw [← Nat.sub_add_cancel hle, Nat.pow_add, ← Nat.mul_assoc] at h
    exact (Nat.eq_of_mul_eq_mul_right (Nat.two_pow_pos e) h).symm
  · refine ⟨n, 0, ?_, (Nat.mul_one n).symm⟩
    rw [← Nat.sub_add_cancel hle, Nat.pow_add, ← Nat.mul_assoc] at h
    have heq := Nat.eq_of_mul_eq_mul_right (Nat.two_pow_pos w) h
    exact Nat.lt_of_le_of_lt (Nat.le_mul_of_pos_right n (Nat.two_pow_pos _)) (heq ▸ hs)

/-- A magnitude that is a whole number has at most 53 bits in front of its zeros. -/
theorem exists_significand_of_unitsOfMagnitude {m n : Nat}
    (h : unitsOfMagnitude m = n * unitsPerOne) : ∃ s k, s < 2 ^ 53 ∧ n = s * 2 ^ k := by
  rw [unitsOfMagnitude_eq, unitsPerOne] at h
  exact exists_significand (significandOf_lt m) h

/-- The number nearest to an integer is the integer exactly if this is a number. -/
theorem ofInt_eq_iff_holdsInteger (n : Int) :
    (ofInt n).isFinite ∧ (ofInt n).units = n * unitsPerOne ↔ HoldsInteger n := by
  have hunits : (ofInt n).units = n * unitsPerOne ↔
      unitsOfMagnitude (magnitudeOfNat n.natAbs) = n.natAbs * unitsPerOne := by
    constructor
    · intro h
      have habs := congrArg Int.natAbs h
      rwa [natAbs_units, magnitude_ofInt, Int.natAbs_mul, Int.natAbs_natCast] at habs
    · intro h
      rw [units, negative_ofInt, magnitude_ofInt, h, Int.natCast_mul]
      simp only [decide_eq_true_eq]
      split
      · rw [← Int.neg_mul, show -(n.natAbs : Int) = n by omega]
      · rw [show (n.natAbs : Int) = n by omega]
  rw [hunits, isFinite, decide_eq_true_eq, magnitude_ofInt]
  constructor
  · rintro ⟨hfinite, hvalue⟩
    refine ⟨?_, exists_significand_of_unitsOfMagnitude hvalue⟩
    have hlt : unitsOfMagnitude (magnitudeOfNat n.natAbs) < unitsOfMagnitude infinityMagnitude :=
      Nat.lt_of_not_le fun hle => Nat.not_le.2 hfinite (unitsOfMagnitude_le_iff.1 hle)
    rw [hvalue, unitsOfMagnitude_infinityMagnitude] at hlt
    exact Nat.lt_of_mul_lt_mul_right hlt
  · rintro ⟨hlt, s, k, hs, heq⟩
    rw [heq] at hlt ⊢
    exact (unitsOfMagnitude_magnitudeOfNat_of_lt (Nat.le_of_lt hs) hlt).symm

theorem isFinite_ofInt_of_range {n : Int} (hlow : -2 ^ 63 ≤ n) (hhigh : n < 2 ^ 63) :
    (ofInt n).isFinite := by
  have hunits := unitsOfMagnitude_magnitudeOfNat_le (show n.natAbs ≤ 2 ^ 63 by omega)
  rw [isFinite, decide_eq_true_eq, magnitude_ofInt]
  refine Nat.lt_of_not_le fun hle => ?_
  have hle' := Nat.le_trans (unitsOfMagnitude_le_iff.2 hle) hunits
  rw [unitsOfMagnitude_infinityMagnitude] at hle'
  have hpow {j k : Nat} (h : j < k) : ¬ 2 ^ k ≤ 2 ^ j :=
    Nat.not_le.2 (Nat.pow_lt_pow_right (by decide) h)
  exact hpow (show 63 < 1024 by decide) (Nat.le_of_mul_le_mul_right hle' unitsPerOne_pos)

/-- The rank of the number nearest to some units. -/
def nearestRank (units : Int) : Int :=
  (ofUnits (decide (units < 0)) units.natAbs 1).rank

theorem rank_ofInt_eq (n : Int) : (ofInt n).rank = nearestRank (n * unitsPerOne) := by
  have hpos : (0 : Int) < unitsPerOne := by
    have hone := unitsPerOne_pos
    omega
  have hneg : decide (n * (unitsPerOne : Int) < 0) = decide (n < 0) := by
    rw [decide_eq_decide]
    exact ⟨fun h => Int.neg_of_mul_neg_left h hpos, fun h => Int.mul_neg_of_neg_of_pos h hpos⟩
  rw [nearestRank, hneg, Int.natAbs_mul, Int.natAbs_natCast, ofInt]

theorem rank_of_isFinite {x : Binary64} (h : x.isFinite) : x.rank = nearestRank x.units := by
  rw [isFinite, decide_eq_true_eq] at h
  have hlt : x.magnitude < 2 ^ 63 := Nat.mod_lt _ (by decide)
  rw [nearestRank, natAbs_units, ofUnits, roundMagnitude_unitsOfMagnitude,
    Nat.min_eq_right (Nat.le_of_lt h), rank, rank, magnitude_ofParts _ hlt,
    negative_ofParts _ hlt, units]
  have hzero : unitsOfMagnitude x.magnitude = 0 → x.magnitude = 0 := by
    intro hunits
    have hle := Nat.le_trans (Nat.le_of_eq hunits) (Nat.zero_le (unitsOfMagnitude 0))
    exact Nat.le_zero.1 (unitsOfMagnitude_le_iff.1 hle)
  simp only [decide_eq_true_eq]
  split <;> split <;> omega

end RecordFlow.Binary64
