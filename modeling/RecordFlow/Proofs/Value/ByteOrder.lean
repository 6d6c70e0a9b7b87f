import RecordFlow.Proofs.Comparison
import RecordFlow.Value.Order

/-!
# The order of byte strings

`compareBytes` is the order of lists of bytes, so it is total, transitive and settles equality. Byte
strings of one length compare before anything that follows them does
(`compareBytes_append_of_length_eq`), numbers in big-endian form compare like numbers
(`compareBytes_bigEndian`), and escaped texts compare like texts whatever follows
(`compareBytes_escapedBytes`).
-/

namespace RecordFlow

theorem compareBytes_eq_compare (as bs : List UInt8) : compareBytes as bs = compare as bs := by
  induction as generalizing bs with
  | nil => cases bs <;> rfl
  | cons a as ih =>
    cases bs with
    | nil => rfl
    | cons b bs =>
      rw [compareBytes, ih]
      exact List.compareLex_cons_cons.symm

instance : Std.TransCmp compareBytes where
  eq_swap {as bs} := by
    rw [compareBytes_eq_compare, compareBytes_eq_compare]
    exact Std.OrientedCmp.eq_swap
  isLE_trans {as bs cs} := by
    rw [compareBytes_eq_compare, compareBytes_eq_compare, compareBytes_eq_compare]
    exact Std.TransCmp.isLE_trans

instance : Std.LawfulEqCmp compareBytes where
  compare_self {as} := by
    rw [compareBytes_eq_compare]
    exact Std.ReflCmp.compare_self
  eq_of_compare {as bs} h := by
    rw [compareBytes_eq_compare] at h
    exact Std.LawfulEqCmp.eq_of_compare h

@[simp] theorem compareBytes_self (bs : List UInt8) : compareBytes bs bs = .eq :=
  Std.ReflCmp.compare_self

theorem compareBytes_eq_eq_iff {as bs : List UInt8} : compareBytes as bs = .eq ↔ as = bs :=
  Std.LawfulEqCmp.compare_eq_iff_eq

theorem compareBytes_swap (as bs : List UInt8) :
    compareBytes as bs = (compareBytes bs as).swap :=
  Std.OrientedCmp.eq_swap

/-! ### Concatenation -/

theorem compareBytes_cons_self (b : UInt8) (as bs : List UInt8) :
    compareBytes (b :: as) (b :: bs) = compareBytes as bs := by
  have hself : compare b b = .eq := Std.ReflCmp.compare_self
  rw [compareBytes, hself, Ordering.eq_then]

theorem compareBytes_cons_of_lt {a b : UInt8} (h : a < b) (as bs : List UInt8) :
    compareBytes (a :: as) (b :: bs) = .lt := by
  have hlt : compare a b = .lt := Std.compare_eq_lt.2 h
  rw [compareBytes, hlt, Ordering.lt_then]

theorem compareBytes_append_of_length_eq {as bs : List UInt8} (h : as.length = bs.length)
    (s t : List UInt8) :
    compareBytes (as ++ s) (bs ++ t) = (compareBytes as bs).then (compareBytes s t) := by
  induction as generalizing bs with
  | nil =>
    obtain rfl := List.eq_nil_of_length_eq_zero h.symm
    rfl
  | cons a as ih =>
    cases bs with
    | nil => cases h
    | cons b bs =>
      rw [List.cons_append, List.cons_append, compareBytes, compareBytes,
        ih (Nat.succ.inj h), Ordering.then_assoc]

/-! ### Numbers -/

@[simp] theorem length_littleEndian (width n : Nat) : (littleEndian width n).length = width := by
  induction width generalizing n with
  | zero => rfl
  | succ width ih => rw [littleEndian, List.length_cons, ih]

@[simp] theorem length_bigEndian (width n : Nat) : (bigEndian width n).length = width := by
  rw [bigEndian, List.length_reverse, length_littleEndian]

theorem bigEndian_succ (width n : Nat) :
    bigEndian (width + 1) n = bigEndian width (n / 256) ++ [UInt8.ofNat n] := by
  rw [bigEndian, littleEndian, List.reverse_cons]
  rfl

theorem compare_eq_compare_toNat (a b : UInt8) : compare a b = compare a.toNat b.toNat := by
  rcases Nat.lt_trichotomy a.toNat b.toNat with h | h | h
  · rw [Nat.compare_eq_lt.2 h, Std.compare_eq_lt]
    exact UInt8.lt_iff_toNat_lt.2 h
  · rw [Nat.compare_eq_eq.2 h, Std.compare_eq_iff_eq]
    exact UInt8.toNat_inj.1 h
  · rw [Nat.compare_eq_gt.2 h, Std.compare_eq_gt]
    exact UInt8.lt_iff_toNat_lt.2 h

/-- Numbers in big-endian form compare like numbers. -/
theorem compareBytes_bigEndian {width m n : Nat} (hm : m < 256 ^ width) (hn : n < 256 ^ width) :
    compareBytes (bigEndian width m) (bigEndian width n) = compare m n := by
  induction width generalizing m n with
  | zero =>
    obtain rfl : m = 0 := by simpa using hm
    obtain rfl : n = 0 := by simpa using hn
    rfl
  | succ width ih =>
    have hlength : (bigEndian width (m / 256)).length = (bigEndian width (n / 256)).length := by
      simp
    have hlow : compareBytes [UInt8.ofNat m] [UInt8.ofNat n] = compare (m % 256) (n % 256) := by
      rw [compareBytes, compareBytes_self, Ordering.then_eq, compare_eq_compare_toNat,
        UInt8.toNat_ofNat', UInt8.toNat_ofNat']
    rw [Nat.pow_succ] at hm hn
    rw [bigEndian_succ, bigEndian_succ, compareBytes_append_of_length_eq hlength, hlow,
      ih (Nat.div_lt_of_lt_mul (by omega)) (Nat.div_lt_of_lt_mul (by omega)),
      ← compare_mul_add _ _ (Nat.mod_lt m (by decide)) (Nat.mod_lt n (by decide)),
      Nat.div_add_mod', Nat.div_add_mod']

theorem biased_of_range {n : Int} (hlow : -2 ^ 63 ≤ n) (hhigh : n < 2 ^ 63) :
    Value.biased n = (n + 2 ^ 63).toNat := by
  rw [Value.biased, Int.emod_eq_of_lt (by omega) (by omega)]

/-- Signed numbers of 64 bits in big-endian form compare like numbers. -/
theorem compareBytes_biased {m n : Int} (hm : -2 ^ 63 ≤ m ∧ m < 2 ^ 63)
    (hn : -2 ^ 63 ≤ n ∧ n < 2 ^ 63) :
    compareBytes (bigEndian 8 (Value.biased m)) (bigEndian 8 (Value.biased n)) = compare m n := by
  rw [biased_of_range hm.1 hm.2, biased_of_range hn.1 hn.2,
    compareBytes_bigEndian (by omega) (by omega)]
  exact compare_eq_compare (by omega) (by omega)

/-! ### Escaped texts -/

/-- What stands after a byte of an escaped text. -/
def escapeMark (b : UInt8) : List UInt8 :=
  if b = 0x00 then [0xFF] else if b = 0xFF then [0x00] else []

theorem escapedBytes_cons (b : UInt8) (bs : List UInt8) :
    Value.escapedBytes (b :: bs) = b :: (escapeMark b ++ Value.escapedBytes bs) := by
  rw [Value.escapedBytes, escapeMark]
  split
  · rename_i h
    rw [h]
    rfl
  · split
    · rename_i h
      rw [h]
      rfl
    · rfl

/-- The end mark of a text comes before every byte that can stand in its place. -/
theorem compareBytes_escapedBytes_nil_cons (b : UInt8) (bs s t : List UInt8) :
    compareBytes (Value.escapedBytes [] ++ s) (Value.escapedBytes (b :: bs) ++ t) = .lt := by
  rw [escapedBytes_cons]
  by_cases h : b = 0x00
  · subst h
    exact compareBytes_cons_self _ _ _
  · exact compareBytes_cons_of_lt (UInt8.pos_iff_ne_zero.2 h) _ _

/-- Escaped texts compare like the texts, whatever follows them. -/
theorem compareBytes_escapedBytes (as bs s t : List UInt8) :
    compareBytes (Value.escapedBytes as ++ s) (Value.escapedBytes bs ++ t) =
      (compareBytes as bs).then (compareBytes s t) := by
  induction as generalizing bs with
  | nil =>
    cases bs with
    | nil => exact compareBytes_append_of_length_eq rfl s t
    | cons b bs => exact compareBytes_escapedBytes_nil_cons b bs s t
  | cons a as ih =>
    cases bs with
    | nil =>
      rw [compareBytes_swap, compareBytes_escapedBytes_nil_cons]
      rfl
    | cons b bs =>
      rw [escapedBytes_cons, escapedBytes_cons, List.cons_append, List.cons_append, compareBytes,
        compareBytes, Ordering.then_assoc]
      cases h : compare a b with
      | lt => rfl
      | gt => rfl
      | eq =>
        obtain rfl := Std.compare_eq_iff_eq.1 h
        rw [Ordering.eq_then, Ordering.eq_then, List.append_assoc, List.append_assoc,
          compareBytes_append_of_length_eq rfl, compareBytes_self, Ordering.eq_then, ih]

end RecordFlow
