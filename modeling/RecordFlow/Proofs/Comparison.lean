/-!
# Comparison in two steps

Things that are put together from a higher and a lower part compare by the higher parts first
(`eq_then`). Numbers do so with the digits they are written in (`compare_mul_add`).
-/

namespace RecordFlow

/-- An order that follows a first one strictly and is settled by a second one otherwise. -/
theorem eq_then {first second both : Ordering} (hlt : first = .lt → both = .lt)
    (heq : first = .eq → both = second) (hgt : first = .gt → both = .gt) :
    both = first.then second := by
  cases first with
  | lt => exact hlt rfl
  | eq => exact heq rfl
  | gt => exact hgt rfl

/-- Places that keep the order of integers compare like these. -/
theorem compare_eq_compare {a b : Int} {m n : Nat} (hlt : m < n ↔ a < b) (hgt : n < m ↔ b < a) :
    compare m n = compare a b := by
  simp only [Nat.compare_eq_ite_lt, Int.compare_eq_ite_lt, hlt, hgt]

theorem compare_add_left (k m n : Nat) : compare (k + m) (k + n) = compare m n := by
  simp only [Nat.compare_eq_ite_lt, Nat.add_lt_add_iff_left]

theorem compare_sub_right (m n k : Int) : compare (m - k) (n - k) = compare m n := by
  simp only [Int.compare_eq_ite_lt, Int.sub_lt_sub_right_iff]

theorem compare_add_natCast (k : Int) (m n : Nat) : compare (k + m) (k + n) = compare m n := by
  simp only [Int.compare_eq_ite_lt, Nat.compare_eq_ite_lt, Int.add_lt_add_iff_left, Int.ofNat_lt]

theorem mul_add_lt {k a b m n : Nat} (h : a < b) (hm : m < k) : a * k + m < b * k + n :=
  calc a * k + m < a * k + k := Nat.add_lt_add_left hm _
    _ = (a + 1) * k := (Nat.succ_mul a k).symm
    _ ≤ b * k := Nat.mul_le_mul_right k h
    _ ≤ b * k + n := Nat.le_add_right _ _

/-- Numbers compare by their higher digits first and by their last ones then. -/
theorem compare_mul_add {k m n : Nat} (a b : Nat) (hm : m < k) (hn : n < k) :
    compare (a * k + m) (b * k + n) = (compare a b).then (compare m n) := by
  apply eq_then
  · intro h
    exact Nat.compare_eq_lt.2 (mul_add_lt (Nat.compare_eq_lt.1 h) hm)
  · intro h
    rw [Nat.compare_eq_eq.1 h, compare_add_left]
  · intro h
    exact Nat.compare_eq_gt.2 (mul_add_lt (Nat.compare_eq_gt.1 h) hn)

end RecordFlow
