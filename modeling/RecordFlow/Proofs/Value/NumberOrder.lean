import Mathlib.Algebra.Order.Field.Basic
import Mathlib.Algebra.Order.Field.Rat
import Mathlib.Order.Compare
import Mathlib.Order.WithBot
import RecordFlow.Proofs.Binary64.Exact
import RecordFlow.Proofs.Value.KeyEquality

/-!
# Numbers compare by their exact values

The exact value of a number other than NaN has a place on the line of the rational numbers, which
ends in an infinity on either side (`Value.place?`). An integer is rounded before it is compared
with a floating-point number, and yet numbers of both kinds compare as these places do
(`Value.compare?_eq_compare_place`). The parts of a number, the nearest binary64 number and the
difference from it, are functions of its exact value (`Value.exactValue?_of_parts`). Rounding keeps
order (`Binary64.nearestRank_mono`), so numbers that are rounded apart are in the order of what they
are rounded to, and of numbers that are rounded to the same one the differences from it decide
(`Binary64.compare_units`).
-/

namespace RecordFlow

/-- The exact value of a number other than NaN. -/
inductive ExactNumber where
  /-- A whole number of units of `2 ^ (-1074)`. -/
  | finite (units : Int)
  | infinite (negative : Bool)
deriving DecidableEq, Repr

namespace Binary64

def exactValue? (x : Binary64) : Option ExactNumber :=
  if x.isNaN then none
  else if x.isInfinite then some (.infinite x.negative)
  else some (.finite x.units)

end Binary64

namespace Value

/-- The exact value of a number of either kind; NaN and other values have none. -/
def exactValue? : Value → Option ExactNumber
  | .int n => some (.finite (n.toInt * Binary64.unitsPerOne))
  | .float x => x.exactValue?
  | _ => none

/-! ### Exact values by their parts -/

/-- The exact value of a number from its parts: the difference counts whole ones. Only a number
without a difference is infinite. -/
theorem exactValue?_of_parts {v : Value} {x : Binary64} {residual : Int}
    (h : v.parts? = some (x, residual)) :
    (x.isFinite ∧ v.exactValue? = some (.finite (x.units + residual * Binary64.unitsPerOne)) ∧
      x.rank = Binary64.nearestRank (x.units + residual * Binary64.unitsPerOne)) ∨
    (x.isInfinite ∧ residual = 0 ∧ v.exactValue? = some (.infinite x.negative)) := by
  obtain ⟨n, rfl, rfl, rfl⟩ | ⟨rfl, hnan, rfl⟩ := eq_of_parts? h
  · have hvalue : (Binary64.ofInt n.toInt).units +
        (n.toInt - (Binary64.ofInt n.toInt).truncate) * Binary64.unitsPerOne =
        n.toInt * Binary64.unitsPerOne := by
      rw [Binary64.units_ofInt, ← Int.add_mul]
      congr 1
      omega
    rw [hvalue]
    exact .inl ⟨Binary64.isFinite_ofInt_of_range n.le_toInt n.toInt_lt, rfl,
      Binary64.rank_ofInt_eq n.toInt⟩
  · rw [Int.zero_mul, Int.add_zero, exactValue?, Binary64.exactValue?, hnan]
    cases hinf : x.isInfinite with
    | true => exact .inr ⟨rfl, rfl, rfl⟩
    | false =>
      have hfinite := Binary64.isFinite_of_not hnan hinf
      exact .inl ⟨hfinite, rfl, Binary64.rank_of_isFinite hfinite⟩

theorem exists_exactValue?_of_parts {v : Value} {p : Binary64 × Int} (h : v.parts? = some p) :
    ∃ x, v.exactValue? = some x := by
  obtain ⟨-, hvalue, -⟩ | ⟨-, -, hvalue⟩ := exactValue?_of_parts h
  · exact ⟨_, hvalue⟩
  · exact ⟨_, hvalue⟩

theorem exists_parts_of_exactValue? {v : Value} {x : ExactNumber} (h : v.exactValue? = some x) :
    ∃ p, v.parts? = some p := by
  cases v with
  | int n => exact ⟨_, rfl⟩
  | float y =>
    cases hnan : y.isNaN with
    | false => exact ⟨_, parts?_float hnan⟩
    | true =>
      rw [exactValue?, Binary64.exactValue?, hnan] at h
      cases h
  | _ => cases h

end Value

/-! ### Places on the line -/

namespace ExactNumber

/-- The place of a number among the rational numbers and the two infinities. -/
def onLine : ExactNumber → WithBot (WithTop ℚ)
  | .finite units => ((units / Binary64.unitsPerOne : ℚ) : WithTop ℚ)
  | .infinite negative => if negative then ⊥ else (⊤ : WithTop ℚ)

theorem onLine_finite_lt {m n : Int} (h : m < n) : (finite m).onLine < (finite n).onLine := by
  have hpos : (0 : ℚ) < Binary64.unitsPerOne := Nat.cast_pos.2 Binary64.unitsPerOne_pos
  exact WithBot.coe_lt_coe.2 (WithTop.coe_lt_coe.2
    ((div_lt_div_iff_of_pos_right hpos).2 (Int.cast_lt.2 h)))

theorem compare_onLine_finite (m n : Int) :
    compare (finite m).onLine (finite n).onLine = compare m n := by
  obtain hlt | rfl | hgt := Int.lt_trichotomy m n
  · rw [Int.compare_eq_lt.2 hlt, compare_lt_iff_lt]
    exact onLine_finite_lt hlt
  · rw [compare_eq_iff_eq.2 rfl, Int.compare_eq_eq.2 rfl]
  · rw [Int.compare_eq_gt.2 hgt, compare_gt_iff_gt]
    exact onLine_finite_lt hgt

/-- An integer has its own place. -/
theorem onLine_finite_mul_unitsPerOne (n : Int) :
    (finite (n * Binary64.unitsPerOne)).onLine = ((n : ℚ) : WithTop ℚ) := by
  have hne : (Binary64.unitsPerOne : ℚ) ≠ 0 :=
    Nat.cast_ne_zero.2 (Nat.ne_of_gt Binary64.unitsPerOne_pos)
  rw [onLine, Int.cast_mul, Int.cast_natCast, mul_div_cancel_right₀ _ hne]

theorem compare_onLine_infinite_right (units : Int) (negative : Bool) :
    compare (finite units).onLine (infinite negative).onLine = if negative then .gt else .lt := by
  cases negative with
  | true => exact compare_gt_iff_gt.2 (WithBot.bot_lt_coe _)
  | false => exact compare_lt_iff_lt.2 (WithBot.coe_lt_coe.2 (WithTop.coe_lt_top _))

theorem onLine_finite_ne_infinite (units : Int) (negative : Bool) :
    (finite units).onLine ≠ (infinite negative).onLine := by
  intro h
  have hcompare := compare_onLine_infinite_right units negative
  rw [compare_eq_iff_eq.2 h] at hcompare
  cases negative <;> cases hcompare

/-- Different exact values have different places. -/
theorem onLine_injective : Function.Injective onLine := by
  rintro (m | negative) (n | negative') h
  · have hcompare := compare_onLine_finite m n
    rw [compare_eq_iff_eq.2 h, eq_comm, Int.compare_eq_eq] at hcompare
    rw [hcompare]
  · exact (onLine_finite_ne_infinite m negative' h).elim
  · exact (onLine_finite_ne_infinite n negative h.symm).elim
  · have hends : (⊥ : WithBot (WithTop ℚ)) ≠ (⊤ : WithTop ℚ) := WithBot.bot_ne_coe
    cases negative with
    | true =>
      cases negative' with
      | true => rfl
      | false => exact (hends h).elim
    | false =>
      cases negative' with
      | true => exact (hends h.symm).elim
      | false => rfl

theorem compare_onLine_swap (u w : ExactNumber) :
    compare w.onLine u.onLine = (compare u.onLine w.onLine).swap := by
  rw [← cmp_eq_compare, ← cmp_eq_compare, cmp_swap]

end ExactNumber

/-! ### Rounded numbers -/

namespace Binary64

theorem rank_ofUnits (negative : Bool) (num den : Nat) : (ofUnits negative num den).rank =
    if negative then -(min infinityMagnitude (roundMagnitude num den) : Int)
    else (min infinityMagnitude (roundMagnitude num den) : Int) := by
  have hlt : min infinityMagnitude (roundMagnitude num den) < 2 ^ 63 :=
    Nat.lt_of_le_of_lt (Nat.min_le_left _ _) (by decide)
  rw [ofUnits, rank, magnitude_ofParts _ hlt, negative_ofParts _ hlt]
  push_cast
  rfl

/-- Rounding keeps order. -/
theorem nearestRank_mono {m n : Int} (h : m ≤ n) : nearestRank m ≤ nearestRank n := by
  rw [nearestRank, nearestRank, rank_ofUnits, rank_ofUnits]
  simp only [decide_eq_true_eq]
  split <;> split
  · have hround := roundMagnitude_mono Nat.one_pos (show n.natAbs ≤ m.natAbs by omega)
    omega
  · omega
  · omega
  · have hround := roundMagnitude_mono Nat.one_pos (show m.natAbs ≤ n.natAbs by omega)
    omega

theorem lt_of_nearestRank_lt {m n : Int} (h : nearestRank m < nearestRank n) : m < n :=
  Int.not_le.1 fun hle => Int.not_le.2 h (nearestRank_mono hle)

/-- Numbers of which the nearest floating-point numbers and the differences from them are known
compare by the first and, if these are equal, by the second. -/
theorem compare_units {x y : Binary64} {m n : Int}
    (hx : x.rank = nearestRank (x.units + m * unitsPerOne))
    (hy : y.rank = nearestRank (y.units + n * unitsPerOne)) :
    compare (x.units + m * unitsPerOne) (y.units + n * unitsPerOne) =
      (compare x.rank y.rank).then (compare m n) := by
  apply eq_then
  · intro h
    rw [hx, hy] at h
    exact Int.compare_eq_lt.2 (lt_of_nearestRank_lt (Int.compare_eq_lt.1 h))
  · intro h
    have hpos : (0 : Int) < unitsPerOne := Int.natCast_pos.2 unitsPerOne_pos
    rw [units_eq_of_rank_eq (Int.compare_eq_eq.1 h)]
    simp only [Int.compare_eq_ite_lt, Int.add_lt_add_iff_left, Int.mul_lt_mul_right hpos]
  · intro h
    rw [hx, hy] at h
    exact Int.compare_eq_gt.2 (lt_of_nearestRank_lt (Int.compare_eq_gt.1 h))

theorem rank_of_isInfinite {x : Binary64} (h : x.isInfinite) :
    x.rank = if x.negative then -(infinityMagnitude : Int) else infinityMagnitude := by
  rw [isInfinite, beq_iff_eq] at h
  rw [rank, h]

/-- A finite number is on the inner side of an infinity. -/
theorem compare_rank_of_isInfinite {x y : Binary64} (hx : x.isFinite) (hy : y.isInfinite) :
    compare x.rank y.rank = if y.negative then .gt else .lt := by
  rw [isFinite, decide_eq_true_eq, ← natAbs_rank] at hx
  rw [rank_of_isInfinite hy]
  split
  · exact Int.compare_eq_gt.2 (by omega)
  · exact Int.compare_eq_lt.2 (by omega)

end Binary64

/-! ### Comparison -/

namespace Value

theorem compare?_of_exactValue? {a b : Value} {u w : ExactNumber} (ha : a.exactValue? = some u)
    (hb : b.exactValue? = some w) : compare? a b = some (compare u.onLine w.onLine) := by
  obtain ⟨⟨x, m⟩, hx⟩ := exists_parts_of_exactValue? ha
  obtain ⟨⟨y, n⟩, hy⟩ := exists_parts_of_exactValue? hb
  rw [compare?_of_parts hx hy, Option.some_inj]
  obtain ⟨hxfinite, hxvalue, hxrank⟩ | ⟨hxinfinite, rfl, hxvalue⟩ := exactValue?_of_parts hx <;>
    obtain ⟨hyfinite, hyvalue, hyrank⟩ | ⟨hyinfinite, rfl, hyvalue⟩ := exactValue?_of_parts hy <;>
    obtain rfl := Option.some.inj (ha.symm.trans hxvalue) <;>
    obtain rfl := Option.some.inj (hb.symm.trans hyvalue)
  · rw [ExactNumber.compare_onLine_finite, Binary64.compare_units hxrank hyrank]
  · rw [ExactNumber.compare_onLine_infinite_right,
      Binary64.compare_rank_of_isInfinite hxfinite hyinfinite]
    cases y.negative <;> rfl
  · rw [ExactNumber.compare_onLine_swap, ExactNumber.compare_onLine_infinite_right,
      ← Int.compare_swap, Binary64.compare_rank_of_isInfinite hyfinite hxinfinite]
    cases x.negative <;> rfl
  · rw [Binary64.rank_of_isInfinite hxinfinite, Binary64.rank_of_isInfinite hyinfinite]
    cases x.negative <;> cases y.negative <;> decide

/-- Numbers compare as equal exactly if they have one exact value. -/
theorem compare?_eq_iff_exactValue? {a b : Value} {u w : ExactNumber}
    (ha : a.exactValue? = some u) (hb : b.exactValue? = some w) :
    compare? a b = some .eq ↔ u = w := by
  rw [compare?_of_exactValue? ha hb, Option.some_inj, compare_eq_iff_eq,
    ExactNumber.onLine_injective.eq_iff]

theorem exists_exactValue? {v : Value} (h : v.isNumeric) (hnan : v.isNaN = false) :
    ∃ x, v.exactValue? = some x := by
  cases v with
  | int n => exact ⟨_, rfl⟩
  | float x => exact exists_exactValue?_of_parts (parts?_float hnan)
  | _ => cases h

/-- The place of a number on the line; NaN and other values have none. -/
def place? : Value → Option (WithBot (WithTop ℚ))
  | .int n => some ((n.toInt : ℚ) : WithTop ℚ)
  | .float x => x.exactValue?.map ExactNumber.onLine
  | _ => none

theorem place?_of_exactValue? {v : Value} {x : ExactNumber} (h : v.exactValue? = some x) :
    v.place? = some x.onLine := by
  cases v with
  | int n =>
    obtain rfl := Option.some.inj h
    rw [place?, ExactNumber.onLine_finite_mul_unitsPerOne]
  | float y => exact congrArg (Option.map ExactNumber.onLine) h
  | _ => cases h

/-- Two numbers of any kinds, neither of them NaN, compare as their places on the line do; NaN
compares with no number. -/
theorem compare?_eq_compare_place (a b : Value) (ha : a.isNumeric) (hb : b.isNumeric) :
    (a.isNaN = false → b.isNaN = false → ∃ x y, a.place? = some x ∧ b.place? = some y ∧
      compare? a b = some (compare x y)) ∧
    (a.isNaN ∨ b.isNaN → compare? a b = none) := by
  constructor
  · intro hanan hbnan
    obtain ⟨x, hx⟩ := exists_exactValue? ha hanan
    obtain ⟨y, hy⟩ := exists_exactValue? hb hbnan
    exact ⟨_, _, place?_of_exactValue? hx, place?_of_exactValue? hy, compare?_of_exactValue? hx hy⟩
  · intro hnan
    cases hab : compare? a b with
    | none => rfl
    | some order =>
      obtain ⟨hanan, hbnan⟩ := isNaN_of_compare? hab
      rw [hanan, hbnan] at hnan
      simp at hnan

/-- The largest integer is rounded to `2 ^ 63`, and is less than that. -/
theorem compare?_eq_compare_place_largestInteger :
    (∃ x y, (int 9223372036854775807).place? = some x ∧
      (float ⟨0x43E0000000000000⟩).place? = some y ∧
      compare? (int 9223372036854775807) (float ⟨0x43E0000000000000⟩) = some (compare x y)) ∧
    Binary64.ofInt 9223372036854775807 = ⟨0x43E0000000000000⟩ ∧
    compare? (int 9223372036854775807) (float ⟨0x43E0000000000000⟩) = some .lt ∧
    compare? (float (.nan true)) (int 0) = none := by
  have hnumbers := compare?_eq_compare_place (int 9223372036854775807) (float ⟨0x43E0000000000000⟩)
    rfl rfl
  have hnan := compare?_eq_compare_place (float (.nan true)) (int 0) rfl rfl
  exact ⟨hnumbers.1 rfl (by decide), by decide +kernel, by decide +kernel,
    hnan.2 (.inl (by decide))⟩

end Value

end RecordFlow
