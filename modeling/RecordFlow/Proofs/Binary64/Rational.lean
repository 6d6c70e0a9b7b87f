import Mathlib.Data.Rat.Floor
import RecordFlow.Proofs.Binary64.Nearest

/-!
# Binary64 numbers as rational numbers

Every finite number is a rational number (`Binary64.toRat`), and its integer part is this number
truncated toward zero (`Binary64.truncate_eq`).
-/

namespace RecordFlow

/-- The integer part of a rational number, its fraction dropped. -/
def truncated (q : ℚ) : Int :=
  if q < 0 then ⌈q⌉ else ⌊q⌋

theorem truncated_intCast (n : Int) : truncated n = n := by
  rw [truncated, Int.ceil_intCast, Int.floor_intCast, ite_self]

theorem truncated_neg (q : ℚ) : truncated (-q) = -truncated q := by
  rcases lt_trichotomy q 0 with h | rfl | h
  · have hneg : ¬ -q < 0 := not_lt.2 (neg_nonneg.2 h.le)
    rw [truncated, truncated, if_pos h, if_neg hneg, Int.floor_neg]
  · simp [truncated]
  · rw [truncated, truncated, if_pos (neg_neg_of_pos h), if_neg (not_lt.2 h.le), Int.ceil_neg]

/-- Truncation leads toward zero. -/
theorem abs_truncated_le (q : ℚ) : |(truncated q : ℚ)| ≤ |q| := by
  rw [truncated]
  split
  · next h =>
    have hceil : (⌈q⌉ : ℚ) ≤ 0 := Int.cast_nonpos.2 (Int.ceil_le.2 (by simpa using h.le))
    rw [abs_of_nonpos hceil, abs_of_neg h]
    exact neg_le_neg (Int.le_ceil q)
  · next h =>
    have hq : 0 ≤ q := not_lt.1 h
    have hfloor : (0 : ℚ) ≤ ⌊q⌋ := Int.cast_nonneg (Int.floor_nonneg.2 hq)
    rw [abs_of_nonneg hfloor, abs_of_nonneg hq]
    exact Int.floor_le q

/-- A quotient of integers is truncated by integer division. -/
theorem truncated_div (n : Int) {d : Nat} (hd : 0 < d) : truncated (n / d : ℚ) = n.tdiv d := by
  have hpos : (0 : ℚ) < d := Nat.cast_pos.2 hd
  rcases Int.lt_or_le n 0 with hneg | hnonneg
  · have hlt : (n / d : ℚ) < 0 := div_neg_of_neg_of_pos (Int.cast_lt_zero.2 hneg) hpos
    have hceil : ⌈(n / d : ℚ)⌉ = -⌊((-n : Int) / d : ℚ)⌋ := by
      rw [← Int.ceil_neg, Int.cast_neg, neg_div, neg_neg]
    rw [truncated, if_pos hlt, hceil, Rat.floor_intCast_div_natCast,
      ← Int.tdiv_eq_ediv_of_nonneg (show 0 ≤ -n by omega), Int.neg_tdiv, Int.neg_neg]
  · have hle : ¬ (n / d : ℚ) < 0 := not_lt.2 (div_nonneg (Int.cast_nonneg hnonneg) hpos.le)
    rw [truncated, if_neg hle, Rat.floor_intCast_div_natCast, Int.tdiv_eq_ediv_of_nonneg hnonneg]

/-! ### Numbers with a sign -/

/-- The number with a sign. -/
def signed (negative : Bool) (q : ℚ) : ℚ :=
  if negative then -q else q

theorem truncated_signed (negative : Bool) (q : ℚ) :
    truncated (signed negative q) = if negative then -truncated q else truncated q := by
  cases negative with
  | false => rfl
  | true => exact truncated_neg q

theorem abs_signed (negative : Bool) {q : ℚ} (h : 0 ≤ q) : |signed negative q| = q := by
  cases negative with
  | false => exact abs_of_nonneg h
  | true => exact (abs_neg q).trans (abs_of_nonneg h)

/-- A number between the integer part of another one and the next integer has this integer part
exactly if it is not the next integer. -/
theorem truncated_signed_eq_iff (negative : Bool) {p q : ℚ} (hq : 0 ≤ q) (hlow : (⌊q⌋ : ℚ) ≤ p) :
    truncated (signed negative p) = truncated (signed negative q) ↔ p < ⌊q⌋ + 1 := by
  have hfloor : (0 : ℚ) ≤ ⌊q⌋ := Int.cast_nonneg (Int.floor_nonneg.2 hq)
  have hp : 0 ≤ p := hfloor.trans hlow
  have hsize : truncated p = truncated q ↔ p < ⌊q⌋ + 1 := by
    rw [truncated, truncated, if_neg (not_lt.2 hp), if_neg (not_lt.2 hq), Int.floor_eq_iff,
      and_iff_right hlow]
  rw [← hsize, truncated_signed, truncated_signed]
  cases negative with
  | false => rfl
  | true => exact Int.neg_inj

/-! ### Exact values -/

namespace Binary64

/-- The exact value of a finite number. -/
def toRat (x : Binary64) : ℚ :=
  x.units / unitsPerOne

theorem unitsPerOne_pos_rat : (0 : ℚ) < unitsPerOne :=
  Nat.cast_pos.2 unitsPerOne_pos

theorem truncate_eq (x : Binary64) : x.truncate = truncated x.toRat :=
  (truncated_div x.units unitsPerOne_pos).symm

theorem toRat_eq_signed (x : Binary64) :
    x.toRat = signed x.negative (unitsOfMagnitude x.magnitude / unitsPerOne) := by
  rw [toRat, units, signed]
  split
  · push_cast
    rw [neg_div]
  · rfl

/-- The exact value of a number if it is finite. -/
def toRat? (x : Binary64) : Option ℚ :=
  if x.isFinite then some x.toRat else none

end Binary64

end RecordFlow
