import RecordFlow.Proofs.Binary64.Rounding
import RecordFlow.Proofs.Timestamp.Order
import RecordFlow.Proofs.Value.ByteOrder

/-!
# The order of values is that of their keys

Where two values compare at all, their keys compare in the same way, whatever follows them
(`Value.compareBytes_key`). The order for sorting is therefore the order of the keys
(`Value.compareForSort_eq`), a total one.

A number is held as its nearest binary64 number and the difference from it. Both kinds of numbers
compare by these parts (`Value.compare?_of_parts`), and the key writes them down
(`Value.key_of_parts`).
-/

namespace RecordFlow

namespace Value

/-! ### Induction over nested values -/

/-- The values directly inside a value. -/
def inner : Value → List Value
  | .list elements => elements
  | .struct fields => fields.map (·.2)
  | _ => []

theorem sizeOf_lt_of_mem_inner {u v : Value} (h : u ∈ v.inner) : sizeOf u < sizeOf v := by
  cases v with
  | list elements =>
    have hlt := List.sizeOf_lt_of_mem (show u ∈ elements from h)
    rw [list.sizeOf_spec]
    omega
  | struct fields =>
    obtain ⟨⟨name, u⟩, hmem, rfl⟩ := List.mem_map.1 h
    have hlt := List.sizeOf_lt_of_mem hmem
    rw [Prod.mk.sizeOf_spec] at hlt
    show sizeOf u < sizeOf (struct fields)
    rw [struct.sizeOf_spec]
    omega
  | _ => cases h

/-- What a value inherits from the values inside it, every value has. -/
theorem inner_induction {motive : Value → Prop}
    (step : ∀ v, (∀ u ∈ v.inner, motive u) → motive v) (v : Value) : motive v :=
  step v fun u _ => inner_induction step u
termination_by sizeOf v
decreasing_by exact sizeOf_lt_of_mem_inner ‹_›

/-! ### The parts of a number -/

/-- The nearest binary64 number and the difference from it; NaN and other values have none. -/
def parts? : Value → Option (Binary64 × Int)
  | .int n => some (.ofInt n.toInt, n.toInt - (Binary64.ofInt n.toInt).truncate)
  | .float x => if x.isNaN then none else some (x, 0)
  | _ => none

/-- What has parts is an integer or a number other than NaN. -/
theorem eq_of_parts? {v : Value} {x : Binary64} {residual : Int}
    (h : v.parts? = some (x, residual)) :
    (∃ n : Int64, v = .int n ∧ x = .ofInt n.toInt ∧
      residual = n.toInt - (Binary64.ofInt n.toInt).truncate) ∨
    (v = .float x ∧ x.isNaN = false ∧ residual = 0) := by
  cases v with
  | int n =>
    cases h
    exact .inl ⟨n, rfl, rfl, rfl⟩
  | float y =>
    rw [parts?] at h
    split at h
    · cases h
    · rename_i hnan
      cases h
      exact .inr ⟨rfl, eq_false_of_ne_true hnan, rfl⟩
  | _ => cases h

theorem residual_bounds {v : Value} {x : Binary64} {residual : Int}
    (h : v.parts? = some (x, residual)) : -2 ^ 63 ≤ residual ∧ residual < 2 ^ 63 := by
  obtain ⟨n, rfl, rfl, rfl⟩ | ⟨rfl, hnan, rfl⟩ := eq_of_parts? h
  · have hlow := n.le_toInt
    have hhigh := n.toInt_lt
    obtain ⟨hnonneg, hneg⟩ := Binary64.truncate_ofInt_bounds hlow hhigh
    omega
  · decide

theorem key_of_parts {v : Value} {x : Binary64} {residual : Int}
    (h : v.parts? = some (x, residual)) : v.key = numberKey x residual := by
  obtain ⟨n, rfl, rfl, rfl⟩ | ⟨rfl, hnan, rfl⟩ := eq_of_parts? h
  · rfl
  · rw [key, floatKey, hnan]
    rfl

/-- The bits of a number in their order are its rank, moved up. -/
theorem orderedBits_eq (x : Binary64) :
    (x.rank < 0 → (orderedBits (if x.isZero then .zero else x) : Int) = 2 ^ 63 - 1 + x.rank) ∧
    (0 ≤ x.rank → (orderedBits (if x.isZero then .zero else x) : Int) = 2 ^ 63 + x.rank) := by
  have hlt := x.bits.toNat_lt
  by_cases hzero : x.magnitude = 0
  · have hrank : x.rank = 0 := by simp [Binary64.rank, hzero]
    rw [hrank, if_pos (by simp [Binary64.isZero, hzero])]
    decide
  · rw [if_neg (by simp [Binary64.isZero, hzero])]
    simp only [orderedBits, Binary64.rank, Binary64.negative, decide_eq_true_eq]
    simp only [Binary64.magnitude] at hzero ⊢
    split <;> omega

theorem rank_bounds (x : Binary64) : -2 ^ 63 < x.rank ∧ x.rank < 2 ^ 63 := by
  have hlt : x.magnitude < 2 ^ 63 := Nat.mod_lt _ (by decide)
  rw [Binary64.rank]
  split <;> omega

theorem compareBytes_orderedBits (x y : Binary64) :
    compareBytes (bigEndian 8 (orderedBits (if x.isZero then .zero else x)))
      (bigEndian 8 (orderedBits (if y.isZero then .zero else y))) = compare x.rank y.rank := by
  have hx := orderedBits_eq x
  have hy := orderedBits_eq y
  have hxrank := rank_bounds x
  have hyrank := rank_bounds y
  rw [compareBytes_bigEndian (by omega) (by omega)]
  exact compare_eq_compare (by omega) (by omega)

/-- Keys of numbers compare by rank and by residual. -/
theorem compareBytes_numberKey {x y : Binary64} {m n : Int} (hm : -2 ^ 63 ≤ m ∧ m < 2 ^ 63)
    (hn : -2 ^ 63 ≤ n ∧ n < 2 ^ 63) (s t : List UInt8) :
    compareBytes (numberKey x m ++ s) (numberKey y n ++ t) =
      ((compare x.rank y.rank).then (compare m n)).then (compareBytes s t) := by
  simp only [numberKey, List.cons_append, List.append_assoc]
  rw [compareBytes_cons_self, compareBytes_append_of_length_eq (by simp),
    compareBytes_append_of_length_eq (by simp), compareBytes_orderedBits,
    compareBytes_biased hm hn, Ordering.then_assoc]

/-! ### Comparison by parts -/

/-- Integers compare by the nearest numbers and then by the differences from them. -/
theorem compare_by_parts (m n : Int) : compare m n =
    (compare (Binary64.ofInt m).rank (Binary64.ofInt n).rank).then
      (compare (m - (Binary64.ofInt m).truncate) (n - (Binary64.ofInt n).truncate)) := by
  have hlt : ∀ {m n : Int}, (Binary64.ofInt m).rank < (Binary64.ofInt n).rank → m < n :=
    fun h => Int.not_le.1 fun hle => Int.not_le.2 h (Binary64.rank_ofInt_mono hle)
  apply eq_then
  · intro h
    exact Int.compare_eq_lt.2 (hlt (Int.compare_eq_lt.1 h))
  · intro h
    rw [Binary64.truncate_eq_of_rank_eq (Int.compare_eq_eq.1 h), compare_sub_right]
  · intro h
    exact Int.compare_eq_gt.2 (hlt (Int.compare_eq_gt.1 h))

theorem compareInt?_by_parts (n : Int) {x : Binary64} (h : x.isNaN = false) :
    Binary64.compareInt? n x = some ((compare (Binary64.ofInt n).rank x.rank).then
      (compare (n - (Binary64.ofInt n).truncate) 0)) := by
  rw [Binary64.compareInt?, Binary64.compare?, Binary64.isNaN_ofInt, h, Bool.or_self,
    if_neg Bool.false_ne_true]
  cases hrank : compare (Binary64.ofInt n).rank x.rank with
  | lt => rfl
  | gt => rfl
  | eq =>
    rw [Binary64.truncate_eq_of_rank_eq (Int.compare_eq_eq.1 hrank), Ordering.eq_then,
      ← Int.sub_self x.truncate, compare_sub_right]

/-- Numbers compare by the nearest binary64 numbers and then by the differences from them. -/
theorem compare?_of_parts {a b : Value} {x y : Binary64} {m n : Int}
    (ha : a.parts? = some (x, m)) (hb : b.parts? = some (y, n)) :
    compare? a b = some ((compare x.rank y.rank).then (compare m n)) := by
  obtain ⟨i, rfl, rfl, rfl⟩ | ⟨rfl, hx, rfl⟩ := eq_of_parts? ha <;>
    obtain ⟨j, rfl, rfl, rfl⟩ | ⟨rfl, hy, rfl⟩ := eq_of_parts? hb
  · rw [compare?, compare_by_parts]
  · rw [compare?, compareInt?_by_parts _ hy]
  · rw [compare?, compareInt?_by_parts _ hx, Option.map_some, Ordering.swap_then,
      Int.compare_swap, Int.compare_swap]
  · rw [compare?, Binary64.compare?, hx, hy, Int.compare_eq_eq.2 rfl, Ordering.then_eq]
    rfl

/-! ### What compares -/

theorem isNaN_of_compareInt? {n : Int} {x : Binary64} {order : Ordering}
    (h : Binary64.compareInt? n x = some order) : x.isNaN = false := by
  cases hnan : x.isNaN with
  | false => rfl
  | true =>
    rw [Binary64.compareInt?, Binary64.compare?, hnan, Bool.or_true, if_pos rfl] at h
    cases h

theorem parts?_float {x : Binary64} (h : x.isNaN = false) : (float x).parts? = some (x, 0) := by
  rw [parts?, h]
  rfl

/-- Only numbers, truth values, texts, timestamps and lists compare, each with their like. -/
theorem compare?_cases {a b : Value} {order : Ordering} (h : compare? a b = some order) :
    (∃ p q, a.parts? = some p ∧ b.parts? = some q) ∨
    (∃ p q, a = .bool p ∧ b = .bool q) ∨
    (∃ s t, a = .text s ∧ b = .text t) ∨
    (∃ t u, a = .timestamp t ∧ b = .timestamp u) ∨
    ∃ as bs, a = .list as ∧ b = .list bs := by
  fun_cases compare? a b with
  | case1 m n => exact .inl ⟨_, _, rfl, rfl⟩
  | case2 x y =>
    cases hnan : x.isNaN || y.isNaN with
    | true =>
      rw [compare?, Binary64.compare?, hnan, if_pos rfl] at h
      cases h
    | false =>
      obtain ⟨hx, hy⟩ := Bool.or_eq_false_iff.1 hnan
      exact .inl ⟨_, _, parts?_float hx, parts?_float hy⟩
  | case3 n x => exact .inl ⟨_, _, rfl, parts?_float (isNaN_of_compareInt? h)⟩
  | case4 x n =>
    obtain ⟨order', horder, -⟩ := Option.map_eq_some_iff.1 h
    exact .inl ⟨_, _, parts?_float (isNaN_of_compareInt? horder), rfl⟩
  | case5 p q => exact .inr (.inl ⟨p, q, rfl, rfl⟩)
  | case6 s t => exact .inr (.inr (.inl ⟨s, t, rfl, rfl⟩))
  | case7 t u => exact .inr (.inr (.inr (.inl ⟨t, u, rfl, rfl⟩)))
  | case8 as bs => exact .inr (.inr (.inr (.inr ⟨as, bs, rfl, rfl⟩)))
  | case9 =>
    rw [compare?] at h
    · cases h
    all_goals assumption

/-! ### Comparison of keys -/

/-- If two values compare, their keys compare in the same way, whatever follows them. -/
def KeysCompare (a b : Value) : Prop :=
  ∀ order, compare? a b = some order → ∀ s t,
    compareBytes (a.key ++ s) (b.key ++ t) = order.then (compareBytes s t)

/-- The first byte of the key of a value, which tells its kind. -/
def lead : Value → UInt8
  | .null => 0x01
  | .bool b => if b then 0x03 else 0x02
  | .int _ => 0x10
  | .float x => if x.isNaN then 0x19 else 0x10
  | .text _ => 0x20
  | .timestamp _ => 0x32
  | .list _ => 0x60
  | .struct _ => 0x64

theorem key_eq_lead_cons (v : Value) : ∃ rest, v.key = v.lead :: rest := by
  cases v with
  | bool b => cases b <;> exact ⟨_, rfl⟩
  | float x =>
    rw [key, floatKey, lead]
    split <;> exact ⟨_, rfl⟩
  | _ => exact ⟨_, rfl⟩

theorem lead_pos (v : Value) : 0x00 < v.lead := by
  cases v with
  | bool b => cases b <;> decide
  | float x =>
    rw [lead]
    split <;> decide
  | _ => simp only [lead]; decide

/-- The end mark of a list comes before every key. -/
theorem compareBytes_end_key (v : Value) (rest s t : List UInt8) :
    compareBytes (0x00 :: s) (v.key ++ rest ++ t) = .lt := by
  obtain ⟨bs, hkey⟩ := key_eq_lead_cons v
  rw [hkey]
  exact compareBytes_cons_of_lt v.lead_pos _ _

theorem compareBytes_elementsKey {as bs : List Value} (h : ∀ a ∈ as, ∀ b, KeysCompare a b) :
    ∀ order, compareElements? as bs = some order → ∀ s t,
      compareBytes (elementsKey as ++ s) (elementsKey bs ++ t) =
        order.then (compareBytes s t) := by
  induction as generalizing bs with
  | nil =>
    cases bs with
    | nil =>
      intro order horder s t
      cases horder
      exact compareBytes_cons_self 0x00 s t
    | cons b bs =>
      intro order horder s t
      cases horder
      exact compareBytes_end_key b _ s t
  | cons a as ih =>
    cases bs with
    | nil =>
      intro order horder s t
      cases horder
      rw [compareBytes_swap]
      exact congrArg Ordering.swap (compareBytes_end_key a _ t s)
    | cons b bs =>
      intro order horder s t
      rw [elementsKey, elementsKey, List.append_assoc, List.append_assoc]
      cases hab : compare? a b with
      | none => rw [compareElements?, hab] at horder; cases horder
      | some first =>
        rw [h a List.mem_cons_self b first hab]
        cases first with
        | lt => rw [compareElements?, hab] at horder; cases horder; rfl
        | gt => rw [compareElements?, hab] at horder; cases horder; rfl
        | eq =>
          rw [compareElements?, hab] at horder
          exact (compareBytes_cons_self 0x01 _ _).trans
            (ih (fun c hc => h c (List.mem_cons_of_mem a hc)) order horder s t)

theorem compareBytes_key (a b : Value) : KeysCompare a b := by
  induction a using inner_induction generalizing b with
  | step a ih =>
    intro order h s t
    -- What compares is of one family, and only lists ask for what is inside.
    obtain ⟨p, q, ha, hb⟩ | ⟨p, q, rfl, rfl⟩ | ⟨p, q, rfl, rfl⟩ | ⟨p, q, rfl, rfl⟩ |
      ⟨as, bs, rfl, rfl⟩ := compare?_cases h
    · rw [compare?_of_parts ha hb] at h
      cases h
      rw [key_of_parts ha, key_of_parts hb,
        compareBytes_numberKey (residual_bounds ha) (residual_bounds hb)]
    · cases h
      cases p <;> cases q <;> rfl
    · cases h
      exact (compareBytes_cons_self _ _ _).trans (compareBytes_escapedBytes _ _ s t)
    · cases h
      rw [key, key, List.cons_append, List.cons_append, compareBytes_cons_self, List.append_assoc,
        List.append_assoc, compareBytes_append_of_length_eq (by simp),
        compareBytes_append_of_length_eq (by simp),
        compareBytes_biased p.epochSeconds_bounds q.epochSeconds_bounds,
        compareBytes_bigEndian p.time.nanosecond_lt_word q.time.nanosecond_lt_word,
        p.compare_eq q, Ordering.then_assoc]
    · exact (compareBytes_cons_self _ _ _).trans
        (compareBytes_elementsKey ih order h s t)

/-! ### One total order -/

/-- The order for sorting is the order of keys. -/
theorem compareForSort_eq (a b : Value) : compareForSort a b = compareBytes a.key b.key := by
  rw [compareForSort]
  cases h : compare? a b with
  | none => rfl
  | some order =>
    have hkey := compareBytes_key a b order h [] []
    rw [List.append_nil, List.append_nil, compareBytes_self, Ordering.then_eq] at hkey
    exact hkey.symm

instance : Std.TransCmp compareForSort where
  eq_swap {a b} := by
    rw [compareForSort_eq, compareForSort_eq]
    exact Std.OrientedCmp.eq_swap
  isLE_trans {a b c} := by
    rw [compareForSort_eq, compareForSort_eq, compareForSort_eq]
    exact Std.TransCmp.isLE_trans

/-- Sorting orders all values by the bytes of their keys. It agrees with the comparison wherever two
values compare, which a value never does with NULL, and although it takes one rule for some pairs
and another for the rest it is total and transitive, and reversed when the values change places. -/
theorem compareForSort_spec (a b c : Value) :
    compareForSort a b = compare a.key b.key ∧
    (∀ order, compare? a b = some order → compare a.key b.key = order) ∧
    compare? a .null = none ∧
    compareForSort b a = (compareForSort a b).swap ∧
    ((compareForSort a b).isLE ∨ (compareForSort b a).isLE) ∧
    ((compareForSort a b).isLE → (compareForSort b c).isLE → (compareForSort a c).isLE) := by
  have hbytes : compareForSort a b = compare a.key b.key := by
    rw [compareForSort_eq, compareBytes_eq_compare]
  have hswap : compareForSort b a = (compareForSort a b).swap := Std.OrientedCmp.eq_swap
  refine ⟨hbytes, fun order horder => ?_, ?_, hswap, ?_, Std.TransCmp.isLE_trans⟩
  · rw [← hbytes, compareForSort, horder, Option.getD_some]
  · cases a <;> rw [compare?] <;> simp
  · rw [hswap]
    cases compareForSort a b <;> simp

/-- The first two lists are ordered by their keys only, the others by comparison. -/
theorem compareForSort_spec_lists :
    compare? (.list [.int 1, .null]) (.list [.float .one, .struct []]) = none ∧
    compare? (.list [.float .one, .struct []]) (.list [.int 2]) = some .lt ∧
    (compareForSort (.list [.int 1, .null]) (.list [.int 2])).isLE := by
  have hspec := compareForSort_spec (.list [.int 1, .null]) (.list [.float .one, .struct []])
    (.list [.int 2])
  obtain ⟨-, -, -, -, -, htrans⟩ := hspec
  have hkeys : (compareForSort (.list [.int 1, .null]) (.list [.float .one, .struct []])).isLE := by
    decide +kernel
  have hcompare : compare? (.list [.float .one, .struct []]) (.list [.int 2]) = some .lt := by
    decide +kernel
  exact ⟨by decide +kernel, hcompare, htrans hkeys (by rw [compareForSort, hcompare]; rfl)⟩

end Value

end RecordFlow
