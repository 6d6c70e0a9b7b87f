import RecordFlow.Proofs.Binary64.Exact
import RecordFlow.Proofs.Json.FloatText

/-!
# The numerals of floating-point numbers are read

The numeral of a finite number is always read as a number, `Binary64.reread` (`number?_numeral`). It
need not be the number that was written, since the digits are rounded before they are scaled and the
result is rounded again. If the digits fit 53 bits and the power of ten is at most `10 ^ 22`, only
the last step rounds, and it finds the number (`reread_eq_self`).
-/

namespace RecordFlow

/-! ### Scaling -/

namespace Json

variable {x : Binary64} {exponent : Int}

theorem scaled?_of_nonneg (he : 0 ≤ exponent) (h : exponent.natAbs ≤ 308)
    (hproduct : (x.mul (Binary64.powerOfTen exponent.natAbs)).isInfinite = false) :
    scaled? x exponent = some (x.mul (Binary64.powerOfTen exponent.natAbs)) := by
  rw [scaled?, if_pos h, if_pos he]
  dsimp only
  rw [hproduct, if_neg Bool.false_ne_true]

theorem scaled?_of_neg (he : exponent < 0) (h : exponent.natAbs ≤ 308) :
    scaled? x exponent = some (x.div (Binary64.powerOfTen exponent.natAbs)) := by
  rw [scaled?, if_pos h, if_neg (Int.not_le.2 he)]

/-- Scaling down always has a result. -/
theorem exists_scaled?_of_neg (x : Binary64) (he : exponent < 0) :
    ∃ y, scaled? x exponent = some y := by
  fun_induction scaled? x exponent with
  | case1 | case2 | case5 => omega
  | case3 | case4 => exact ⟨_, rfl⟩
  | case6 x exponent _ _ _ ih => exact ih (by omega)

end Json

namespace Binary64

open Json

/-! ### Products that stay finite -/

theorem isFinite_ofUnits {negative : Bool} {num den : Nat} :
    (ofUnits negative num den).isFinite ↔ roundMagnitude num den < infinityMagnitude := by
  have hle : min infinityMagnitude (roundMagnitude num den) < 2 ^ 63 :=
    Nat.lt_of_le_of_lt (Nat.min_le_left _ _) (by decide)
  rw [isFinite, ofUnits, magnitude_ofParts _ hle, decide_eq_true_eq]
  omega

theorem isFinite_ofInt {m n : Nat} (hmn : m ≤ n) (hn : (ofInt n).isFinite) :
    (ofInt m).isFinite := by
  rw [isFinite, magnitude_ofInt, Int.natAbs_natCast, decide_eq_true_eq] at *
  exact Nat.lt_of_le_of_lt (magnitudeOfNat_mono hmn) hn

/-- Smaller factors have a smaller product. -/
theorem isFinite_mul_ofInt {m m' n n' : Nat} (hm : m ≤ m') (hn : n ≤ n') (hm' : (ofInt m').isFinite)
    (hn' : (ofInt n').isFinite) (h : ((ofInt m').mul (ofInt n')).isFinite) :
    ((ofInt m).mul (ofInt n)).isFinite := by
  have hmono {i j : Nat} (hij : i ≤ j) :
      unitsOfMagnitude (magnitudeOfNat i) ≤ unitsOfMagnitude (magnitudeOfNat j) :=
    unitsOfMagnitude_le_iff.2 (magnitudeOfNat_mono hij)
  simp only [mul_eq_ofUnits hm' hn', mul_eq_ofUnits (isFinite_ofInt hm hm') (isFinite_ofInt hn hn'),
    isFinite_ofUnits, magnitude_ofInt, Int.natAbs_natCast] at h ⊢
  exact Nat.lt_of_le_of_lt
    (roundMagnitude_mono unitsPerOne_pos (Nat.mul_le_mul (hmono hm) (hmono hn))) h

theorem pow_ten_le {j k : Nat} (h : j ≤ k) : 10 ^ j ≤ 10 ^ k :=
  Nat.pow_le_pow_right (by decide) h

/-- Twice the midpoint below the largest number, in units. -/
def largestBound : Nat :=
  unitsOfMagnitude (infinityMagnitude - 2) + unitsOfMagnitude (infinityMagnitude - 1)

/-- The digits that a power of ten has at most in the decimal of a number below the largest one. -/
def largestDigits (exponent : Nat) : Nat :=
  largestBound / (10 ^ exponent * (2 * unitsPerOne))

/-- Digits and powers of ten up to the bounds have finite products. Below `10 ^ 290` the digits need
no other bound than their number. -/
theorem isFinite_products :
    ((ofInt (10 ^ 18 : Nat)).isFinite ∧ (ofInt (10 ^ 290 : Nat)).isFinite ∧
      ((ofInt (10 ^ 18 : Nat)).mul (ofInt (10 ^ 290 : Nat))).isFinite) ∧
    ∀ exponent < 309, 290 < exponent →
      (ofInt (largestDigits exponent)).isFinite ∧ (ofInt (10 ^ exponent : Nat)).isFinite ∧
        ((ofInt (largestDigits exponent)).mul (ofInt (10 ^ exponent : Nat))).isFinite := by
  decide +kernel

theorem isFinite_mul_powerOfTen {digits exponent : Nat} (hdigits : digits ≤ 10 ^ 18)
    (he : exponent < 309) (hbound : digits ≤ largestDigits exponent) :
    ((ofInt digits).mul (powerOfTen exponent)).isFinite := by
  obtain ⟨⟨hcount, hpower, hproduct⟩, hlarge⟩ := isFinite_products
  rw [powerOfTen_eq_ofInt]
  rcases Nat.lt_or_ge 290 exponent with hlt | hge
  · obtain ⟨hlargest, hpower, hproduct⟩ := hlarge exponent he hlt
    exact isFinite_mul_ofInt hbound (Nat.le_refl _) hlargest hpower hproduct
  · exact isFinite_mul_ofInt hdigits (pow_ten_le hge) hcount hpower hproduct

/-- The largest number has the decimal `17976931348623157e292`. -/
theorem shortest_largest :
    shortest .even (infinityMagnitude - 1) = ⟨17976931348623157, 292⟩ := by
  decide +kernel

theorem isFinite_largest : ((ofInt 17976931348623157).mul (powerOfTen 292)).isFinite := by
  decide +kernel

theorem lt_of_pow_le_largestBound {exponent : Nat}
    (h : 10 ^ exponent * (2 * unitsPerOne) ≤ largestBound) : exponent < 309 := by
  have hbound : largestBound < 10 ^ 309 * (2 * unitsPerOne) := by decide +kernel
  refine Nat.lt_of_not_le fun hge => Nat.not_lt.2 (Nat.le_trans ?_ h) hbound
  exact Nat.mul_le_mul_right _ (pow_ten_le hge)

/-- The digits of a decimal and its power of ten have a finite product. -/
theorem isFinite_mul_shortest {m : Nat} (hpos : 0 < m) (hm : m < infinityMagnitude)
    (he : 0 ≤ (shortest .even m).exponent) :
    (shortest .even m).exponent.natAbs < 309 ∧
      ((ofInt (shortest .even m).digits).mul
        (powerOfTen (shortest .even m).exponent.natAbs)).isFinite := by
  by_cases hlargest : m = infinityMagnitude - 1
  · rw [hlargest, shortest_largest]
    exact ⟨by decide, isFinite_largest⟩
  have hbound := (shortest_mem .even hm).1.bounds.2
  have hdigits := digits_shortest_pos .even hpos hm
  have hcount := digits_shortest_lt .even hm
  generalize shortest .even m = d at *
  obtain ⟨k, hk⟩ := Int.eq_ofNat_of_zero_le he
  rw [hk] at hbound ⊢
  rw [Int.toNat_natCast, Int.toNat_neg_natCast, Nat.pow_zero, Nat.mul_one, ← mul_step] at hbound
  rw [Int.natAbs_natCast]
  have hunits : unitsOfMagnitude m + unitsOfMagnitude (m + 1) ≤ largestBound :=
    Nat.add_le_add (unitsOfMagnitude_le_iff.2 (by omega)) (unitsOfMagnitude_le_iff.2 (by omega))
  have hle : d.digits * (10 ^ k * (2 * unitsPerOne)) ≤ largestBound := Nat.le_trans hbound hunits
  have hexponent : k < 309 :=
    lt_of_pow_le_largestBound (Nat.le_trans (Nat.le_mul_of_pos_left _ hdigits) hle)
  have hstep : 0 < 10 ^ k * (2 * unitsPerOne) :=
    Nat.mul_pos (Nat.pow_pos (by decide)) (Nat.mul_pos (by decide) unitsPerOne_pos)
  exact ⟨hexponent, isFinite_mul_powerOfTen (Nat.le_of_lt hcount) hexponent
    ((Nat.le_div_iff_mul_le hstep).2 hle)⟩

/-! ### Reading -/

/-- The number that the numeral of a finite number is read as: its digits as a number, times or
divided by their power of ten. -/
def reread (x : Binary64) : Binary64 :=
  match scaled? (ofInt x.printed.1) x.printed.2 with
  | some y => if x.negative then y.neg else y
  | none => x

variable {x : Binary64}

theorem printed_of_nonneg (h : 0 ≤ x.printed.2) : ¬ x.isZero ∧
    x.printed = ((shortest .even x.magnitude).digits, (shortest .even x.magnitude).exponent) := by
  unfold printed at *
  dsimp only at *
  split
  · next hzero =>
    rw [if_pos hzero] at h
    cases h
  next hzero =>
  refine ⟨hzero, ?_⟩
  rw [if_neg hzero] at h
  split
  · next hfull =>
    rw [if_pos hfull] at h
    cases h
  · rfl

/-- The digits of a finite number can be scaled by their power of ten. -/
theorem exists_scaled? (hx : x.isFinite) :
    ∃ y, scaled? (ofInt x.printed.1) x.printed.2 = some y := by
  by_cases hneg : x.printed.2 < 0
  · exact exists_scaled?_of_neg _ hneg
  have hnonneg := Int.not_lt.1 hneg
  obtain ⟨hzero, hprinted⟩ := printed_of_nonneg hnonneg
  rw [hprinted] at hnonneg ⊢
  obtain ⟨hexponent, hfinite⟩ :=
    isFinite_mul_shortest (magnitude_pos hzero) (of_decide_eq_true hx) hnonneg
  exact ⟨_, scaled?_of_nonneg hnonneg (Nat.le_of_lt_succ hexponent)
    (isInfinite_of_isFinite hfinite)⟩

theorem number?_numeral (hx : x.isFinite) : x.numeral.number? = some (.float x.reread) := by
  obtain ⟨y, hy⟩ := exists_scaled? hx
  have hwhole := not_whole_numeral x
  rw [Numeral.number?, significand_numeral hx, reread, hy, negative_numeral]
  simp only [hwhole, Bool.false_and, Bool.false_eq_true, if_false, hy, Option.map_some]

/-! ### Numbers that are found again -/

/-- The printed decimal lies in the interval of the number. -/
theorem printed_mem (hx : x.isFinite) (hzero : ¬ x.isZero) :
    InInterval x.magnitude (x.printed.1 * 10 ^ x.printed.2.toNat * unitsPerOne)
      (10 ^ (-x.printed.2).toNat) := by
  have hmem := (shortest_mem .even (of_decide_eq_true hx)).1
  unfold printed
  rw [if_neg hzero]
  dsimp only
  generalize shortest .even x.magnitude = d at *
  split
  · next hfull =>
    -- the digit behind the point scales both sides by ten
    simp only [Bool.and_eq_true, decide_eq_true_eq] at hfull
    obtain ⟨k, hk⟩ := Int.eq_ofNat_of_zero_le hfull.1
    have hscaled := hmem.mul_right (show 0 < 10 by decide)
    rw [hk, Int.toNat_natCast, Int.toNat_neg_natCast] at hscaled
    rw [hk, Int.toNat_natCast]
    have hdigits : d.digits * 10 ^ (k + 1) * 10 ^ (-1 : Int).toNat * unitsPerOne =
        d.digits * 10 ^ k * unitsPerOne * 10 := by
      rw [Nat.pow_succ, show (-1 : Int).toNat = 0 from rfl, Nat.pow_zero, Nat.mul_one]
      generalize unitsPerOne = unit
      ac_rfl
    rw [hdigits]
    exact hscaled
  · exact hmem

theorem magnitude_lt (x : Binary64) : x.magnitude < 2 ^ 63 :=
  Nat.mod_lt _ (by decide)

theorem isFinite_abs (hx : x.isFinite) : x.abs.isFinite := by
  rwa [isFinite, abs, magnitude_ofParts _ (magnitude_lt x)]

theorem neg_abs (x : Binary64) : (if x.negative then x.abs.neg else x.abs) = x := by
  have hparts := ofParts_negative_magnitude x
  rw [neg, abs, magnitude_ofParts _ (magnitude_lt x), negative_ofParts _ (magnitude_lt x)]
  split
  · next hneg => rwa [hneg] at hparts
  · next hpos => rwa [Bool.eq_false_iff.2 hpos] at hparts

/-- Digits of at most 53 bits with a power of ten up to `10 ^ 22` are read as the number that they
were printed for. -/
theorem reread_eq_self (hx : x.isFinite) (hdigits : x.printed.1 ≤ 2 ^ 53)
    (he : x.printed.2.natAbs ≤ 22) : x.reread = x := by
  have habs : scaled? (ofInt x.printed.1) x.printed.2 = some x.abs := by
    by_cases hzero : x.isZero
    · have hquotient : (ofInt 0).div (powerOfTen 1) = ofParts false 0 := by decide +kernel
      rw [printed, if_pos hzero, abs, beq_iff_eq.1 hzero, ← hquotient]
      exact scaled?_of_neg (by decide) (by decide)
    have hmem := printed_mem hx hzero
    generalize x.printed.1 = digits at *
    generalize x.printed.2 = exponent at *
    by_cases hneg : exponent < 0
    · rw [show exponent.toNat = 0 by omega, Nat.pow_zero, Nat.mul_one,
        show (-exponent).toNat = exponent.natAbs by omega] at hmem
      have hround := ofUnits_eq_abs hx (magnitude_pos hzero) (Nat.pow_pos (by decide)) hmem
      rw [scaled?_of_neg hneg (by omega), div_ofInt_powerOfTen hdigits he, hround]
    · rw [show exponent.toNat = exponent.natAbs by omega,
        show (-exponent).toNat = 0 by omega, Nat.pow_zero] at hmem
      have hround := ofUnits_eq_abs hx (magnitude_pos hzero) Nat.one_pos hmem
      have hproduct := (mul_ofInt_powerOfTen hdigits he).trans hround
      have hfinite := isInfinite_of_isFinite (isFinite_abs hx)
      rw [scaled?_of_nonneg (Int.not_lt.1 hneg) (by omega) (by rwa [hproduct]), hproduct]
  rw [reread, habs]
  exact neg_abs x

end Binary64

end RecordFlow
