import RecordFlow.Proofs.Binary64.Nearest

/-!
# Shortest decimals round to where they came from

The search of `shortest` tries coarser grids before finer ones and always finds a point in the
rounding interval, on a grid at most eighteen steps finer than the first one
(`shortest_mem`). Its digits are those of a positive number below `10 ^ 18`.
-/

namespace RecordFlow.Binary64

/-! ### Grids -/

/-- A point of a grid, in the scale of an interval. -/
theorem mul_step (c power units : Nat) :
    c * (power * (2 * units)) = 2 * (c * power * units) := by
  ac_rfl

theorem holds_roundingInterval (m c : Nat) (exponent : Int) :
    (roundingInterval m).holds (10 ^ (-exponent).toNat)
      (10 ^ exponent.toNat * (roundingInterval m).scale) c = true ↔
      InInterval m (c * 10 ^ exponent.toNat * unitsPerOne) (10 ^ (-exponent).toNat) := by
  unfold RoundingInterval.holds roundingInterval InInterval
  dsimp only
  rw [mul_step]
  by_cases hm : m % 2 = 0
  · rw [if_pos (beq_iff_eq.2 hm), if_pos hm, Bool.and_eq_true, decide_eq_true_eq, decide_eq_true_eq]
  · rw [if_neg (by rwa [beq_iff_eq]), if_neg hm, Bool.and_eq_true, decide_eq_true_eq,
      decide_eq_true_eq]

/-- What a grid offers lies in the interval. -/
theorem holds_of_onGrid? {i : RoundingInterval} {tie : DecimalTie} {exponent : Int} {c : Nat}
    (h : i.onGrid? tie exponent = some c) :
    i.holds (10 ^ (-exponent).toNat) (10 ^ exponent.toNat * i.scale) c = true := by
  unfold RoundingInterval.onGrid? at h
  dsimp only at h
  split at h
  · next hbelow habove =>
    obtain rfl := Option.some.inj h
    cases tie <;> dsimp only <;> split
    all_goals first | exact hbelow | exact habove
  · next hbelow _ =>
    obtain rfl := Option.some.inj h
    exact hbelow
  · next _ habove =>
    obtain rfl := Option.some.inj h
    exact habove
  · cases h

/-- A grid on which the point above the number lies in the interval offers a point. -/
theorem exists_onGrid? {i : RoundingInterval} (tie : DecimalTie) {exponent : Int}
    (h : i.holds (10 ^ (-exponent).toNat) (10 ^ exponent.toNat * i.scale)
      (i.value * 10 ^ (-exponent).toNat / (10 ^ exponent.toNat * i.scale) + 1) = true) :
    ∃ c, i.onGrid? tie exponent = some c := by
  unfold RoundingInterval.onGrid?
  dsimp only
  rw [h]
  split <;> first | exact ⟨_, rfl⟩ | simp_all

/-- A grid with steps smaller than the distance to the next number has a point in the interval. -/
theorem exists_onGrid?_of_lt {m : Nat} {exponent : Int} (tie : DecimalTie)
    (h : 10 ^ exponent.toNat * (2 * unitsPerOne) <
      2 ^ weightOf m * 10 ^ (-exponent).toNat) :
    ∃ c, (roundingInterval m).onGrid? tie exponent = some c := by
  refine exists_onGrid? tie ((holds_roundingInterval m _ exponent).2 ?_)
  show InInterval m ((2 * unitsOfMagnitude m * 10 ^ (-exponent).toNat /
    (10 ^ exponent.toNat * (2 * unitsPerOne)) + 1) * 10 ^ exponent.toNat * unitsPerOne) _
  have hlow := unitsOfMagnitude_le_iff.2 (Nat.sub_le m 1)
  have hsucc : unitsOfMagnitude (m + 1) = unitsOfMagnitude m + 2 ^ weightOf m := by
    rw [unitsOfMagnitude_succ, Nat.add_mul, Nat.one_mul, ← unitsOfMagnitude_eq]
  have hstep : 0 < 10 ^ exponent.toNat * (2 * unitsPerOne) :=
    Nat.mul_pos (Nat.pow_pos (by decide)) (Nat.mul_pos (by decide) unitsPerOne_pos)
  have hmultiplier := Nat.mul_le_mul_right (10 ^ (-exponent).toNat) hlow
  rw [InInterval, ← mul_step, hsucc]
  generalize 10 ^ exponent.toNat * (2 * unitsPerOne) = step at *
  generalize 10 ^ (-exponent).toNat = multiplier at *
  generalize 2 ^ weightOf m = width at *
  -- the point above the number is at most a step away from it
  have hdiv := Nat.div_add_mod (2 * unitsOfMagnitude m * multiplier) step
  have hmod := Nat.mod_lt (2 * unitsOfMagnitude m * multiplier) hstep
  rw [Nat.mul_comm step] at hdiv
  simp only [Nat.add_mul, Nat.one_mul, Nat.mul_assoc 2] at *
  split <;> omega

/-! ### The search -/

/-- A search that comes by a grid with a point ends on such a grid, no finer than that one. -/
theorem search_spec {i : RoundingInterval} {tie : DecimalTie} {steps : Nat} :
    ∀ {fuel : Nat} {exponent : Int}, steps < fuel →
      (∃ c, i.onGrid? tie (exponent - steps) = some c) →
      i.onGrid? tie (i.search tie fuel exponent).exponent =
          some (i.search tie fuel exponent).digits ∧
        exponent - steps ≤ (i.search tie fuel exponent).exponent ∧
        (i.search tie fuel exponent).exponent ≤ exponent := by
  induction steps with
  | zero =>
    intro fuel exponent hfuel ⟨c, hc⟩
    obtain ⟨fuel, rfl⟩ : ∃ k, fuel = k + 1 := ⟨fuel - 1, by omega⟩
    have hhere : i.onGrid? tie exponent = some c := by simpa using hc
    rw [RoundingInterval.search, hhere]
    exact ⟨hhere, Int.sub_le_self _ (Int.natCast_nonneg _), Int.le_refl _⟩
  | succ steps ih =>
    intro fuel exponent hfuel hc
    obtain ⟨fuel, rfl⟩ : ∃ k, fuel = k + 1 := ⟨fuel - 1, by omega⟩
    rw [RoundingInterval.search]
    cases hhere : i.onGrid? tie exponent with
    | some c => exact ⟨hhere, Int.sub_le_self _ (Int.natCast_nonneg _), Int.le_refl _⟩
    | none =>
      have hshift : exponent - 1 - (steps : Int) = exponent - (steps + 1 : Nat) := by omega
      obtain ⟨hgrid, hlow, hhigh⟩ := ih (show steps < fuel by omega) (hshift ▸ hc)
      dsimp only
      exact ⟨hgrid, by omega, by omega⟩

/-- The exponent of the first grid for a number of units with a given logarithm. -/
def firstExponent (log : Nat) : Int :=
  (log - 1073 : Int) * 30103 / 100000 + 1

/-- Eighteen steps below the first grid, the steps are smaller than the distance of neighbours, and
numbers have less than nineteen digits. -/
theorem firstExponent_spec {log : Nat} (h : log < 2098) :
    10 ^ (firstExponent log - 18).toNat * (2 * unitsPerOne) <
      2 ^ (log - 52) * 10 ^ (-(firstExponent log - 18)).toNat ∧
    2 ^ (log + 1) * 10 ^ (-(firstExponent log - 18)).toNat <
      10 ^ 18 * 10 ^ (firstExponent log - 18).toNat * unitsPerOne := by
  have all : ∀ log < 2098,
      10 ^ (firstExponent log - 18).toNat * (2 * unitsPerOne) <
        2 ^ (log - 52) * 10 ^ (-(firstExponent log - 18)).toNat ∧
      2 ^ (log + 1) * 10 ^ (-(firstExponent log - 18)).toNat <
        10 ^ 18 * 10 ^ (firstExponent log - 18).toNat * unitsPerOne := by
    decide +kernel
  exact all log h

/-! ### Shortest decimals -/

variable {m : Nat}

theorem weightOf_eq (m : Nat) : weightOf m = (unitsOfMagnitude m).log2 - 52 :=
  (shiftOf_of_between (Nat.le_refl _) (unitsOfMagnitude_lt_succ m)).symm

theorem log2_unitsOfMagnitude_lt (hm : m < infinityMagnitude) :
    (unitsOfMagnitude m).log2 < 2098 := by
  by_cases hzero : unitsOfMagnitude m = 0
  · rw [hzero]
    decide
  · have hweight : weightOf m ≤ 2045 := by
      unfold weightOf infinityMagnitude at *
      omega
    rw [Nat.log2_lt hzero, unitsOfMagnitude_eq]
    calc significandOf m * 2 ^ weightOf m
        < 2 ^ 53 * 2 ^ weightOf m :=
          Nat.mul_lt_mul_of_pos_right (significandOf_lt m) (Nat.two_pow_pos _)
      _ = 2 ^ (53 + weightOf m) := (Nat.pow_add 2 53 _).symm
      _ ≤ 2 ^ 2098 := Nat.pow_le_pow_right (by decide) (by omega)

/-- The successor of a magnitude is no larger than the next power of two. -/
theorem unitsOfMagnitude_succ_le (m : Nat) :
    unitsOfMagnitude (m + 1) ≤ 2 ^ ((unitsOfMagnitude m).log2 + 1) := by
  have hlt : unitsOfMagnitude m < 2 ^ ((unitsOfMagnitude m).log2 + 1) := Nat.lt_log2_self
  have hweight := weightOf_eq m
  generalize (unitsOfMagnitude m).log2 = log at *
  rw [show log + 1 = log + 1 - weightOf m + weightOf m by omega, Nat.pow_add] at hlt ⊢
  rw [unitsOfMagnitude_eq] at hlt
  rw [unitsOfMagnitude_succ]
  exact Nat.mul_le_mul_right _ (Nat.lt_of_mul_lt_mul_right hlt)

/-- Powers of ten grow with the exponent, whichever signs the exponents have. -/
theorem pow_toNat_mul_le {d e : Int} (h : d ≤ e) :
    10 ^ d.toNat * 10 ^ (-e).toNat ≤ 10 ^ e.toNat * 10 ^ (-d).toNat := by
  rw [← Nat.pow_add, ← Nat.pow_add]
  exact Nat.pow_le_pow_right (by decide) (by omega)

/-- The decimal that the search ends with lies in the interval of the magnitude. -/
theorem shortest_mem (tie : DecimalTie) (hm : m < infinityMagnitude) :
    InInterval m ((shortest tie m).digits * 10 ^ (shortest tie m).exponent.toNat * unitsPerOne)
        (10 ^ (-(shortest tie m).exponent).toNat) ∧
      firstExponent (unitsOfMagnitude m).log2 - 18 ≤ (shortest tie m).exponent := by
  have hfine := (firstExponent_spec (log2_unitsOfMagnitude_lt hm)).1
  rw [← weightOf_eq] at hfine
  obtain ⟨hgrid, hlow, -⟩ := search_spec (show 18 < 20 by decide) (exists_onGrid?_of_lt tie hfine)
  exact ⟨(holds_roundingInterval m _ _).1 (holds_of_onGrid? hgrid), hlow⟩

theorem InInterval.bounds {num den : Nat} (h : InInterval m num den) :
    (unitsOfMagnitude (m - 1) + unitsOfMagnitude m) * den ≤ 2 * num ∧
      2 * num ≤ (unitsOfMagnitude m + unitsOfMagnitude (m + 1)) * den := by
  unfold InInterval at h
  split at h
  · exact h
  · exact ⟨Nat.le_of_lt h.1, Nat.le_of_lt h.2⟩

theorem magnitude_pos {x : Binary64} (h : ¬ x.isZero) : 0 < x.magnitude := by
  unfold isZero at h
  rw [beq_iff_eq] at h
  exact Nat.pos_of_ne_zero h

theorem digits_shortest_pos (tie : DecimalTie) (hpos : 0 < m) (hm : m < infinityMagnitude) :
    0 < (shortest tie m).digits := by
  have hbounds := (shortest_mem tie hm).1.bounds.1
  have hunits : 0 < unitsOfMagnitude m :=
    Nat.lt_of_le_of_lt (Nat.zero_le _) (Nat.lt_of_not_le
      (mt unitsOfMagnitude_le_iff.1 (Nat.not_le.2 hpos)))
  have hleft := Nat.mul_pos (Nat.add_pos_right (unitsOfMagnitude (m - 1)) hunits)
    (Nat.pow_pos (show 0 < 10 by decide) (n := (-(shortest tie m).exponent).toNat))
  rcases Nat.eq_zero_or_pos (shortest tie m).digits with hzero | hdigits
  · rw [hzero] at hbounds
    omega
  · exact hdigits

theorem lt_of_mul_le {digits bound a b c d units high : Nat} (hb : 0 < b)
    (hdigits : digits * a * units ≤ high * b) (hbound : high * d < bound * c * units)
    (hpow : c * b ≤ a * d) : digits < bound := by
  refine Nat.lt_of_not_le fun hle => ?_
  have hmul : bound * c * units * b ≤ high * d * b :=
    calc bound * c * units * b = c * b * (bound * units) := by ac_rfl
      _ ≤ a * d * (bound * units) := Nat.mul_le_mul_right _ hpow
      _ = bound * (a * units * d) := by ac_rfl
      _ ≤ digits * (a * units * d) := Nat.mul_le_mul_right _ hle
      _ = digits * a * units * d := by ac_rfl
      _ ≤ high * b * d := Nat.mul_le_mul_right _ hdigits
      _ = high * d * b := by ac_rfl
  exact Nat.not_lt.2 (Nat.le_of_mul_le_mul_right hmul hb) hbound

/-- There are no more than eighteen digits. -/
theorem digits_shortest_lt (tie : DecimalTie) (hm : m < infinityMagnitude) :
    (shortest tie m).digits < 10 ^ 18 := by
  obtain ⟨hmem, hexponent⟩ := shortest_mem tie hm
  have hcoarse := (firstExponent_spec (log2_unitsOfMagnitude_lt hm)).2
  have hnext := unitsOfMagnitude_succ_le m
  have hlt := unitsOfMagnitude_lt_succ m
  have hhigh : (shortest tie m).digits * 10 ^ (shortest tie m).exponent.toNat * unitsPerOne ≤
      2 ^ ((unitsOfMagnitude m).log2 + 1) * 10 ^ (-(shortest tie m).exponent).toNat := by
    have hmul := Nat.mul_le_mul_right (10 ^ (-(shortest tie m).exponent).toNat)
      (show unitsOfMagnitude m + unitsOfMagnitude (m + 1) ≤
        2 * 2 ^ ((unitsOfMagnitude m).log2 + 1) by omega)
    rw [Nat.mul_assoc 2] at hmul
    exact Nat.le_of_mul_le_mul_left (Nat.le_trans hmem.bounds.2 hmul) (by decide)
  exact lt_of_mul_le (Nat.pow_pos (by decide)) hhigh hcoarse (pow_toNat_mul_le hexponent)

end RecordFlow.Binary64
