import Mathlib.Algebra.Ring.Int.Defs
import RecordFlow.Aggregate

/-!
# Sums of a column

An integer that a sum comes to is the exact one (`sum_spec`). Two integers add up to an integer only
if that is their sum, so where 64 bits are left the total becomes a floating-point number, and it
stays one. A failure comes from the first value that is not a number, whatever the total is by then.
-/

namespace RecordFlow

namespace Aggregate

/-! ### One addition -/

/-- The number is a signed one of 64 bits. -/
def FitsInt64 (n : Int) : Prop :=
  -2 ^ 63 ≤ n ∧ n < 2 ^ 63

theorem fitsInt64_toInt (n : Int64) : FitsInt64 n.toInt :=
  ⟨n.le_toInt, n.toInt_lt⟩

theorem addIntegers_of_fits {a b : Int64} (h : FitsInt64 (a.toInt + b.toInt)) :
    addIntegers a b = .int (Int64.ofInt (a.toInt + b.toInt)) := by
  rw [addIntegers, if_pos]
  simpa [FitsInt64] using h

theorem addIntegers_of_not_fits {a b : Int64} (h : ¬FitsInt64 (a.toInt + b.toInt)) :
    addIntegers a b = .float ((Binary64.ofInt a.toInt).add (Binary64.ofInt b.toInt)) := by
  rw [addIntegers, if_neg]
  simpa [FitsInt64] using h

/-- An integer as the outcome is neither wrapped around nor rounded. -/
theorem addIntegers_eq_int_iff {a b n : Int64} :
    addIntegers a b = .int n ↔ n.toInt = a.toInt + b.toInt := by
  by_cases h : FitsInt64 (a.toInt + b.toInt)
  · have hexact : (Int64.ofInt (a.toInt + b.toInt)).toInt = a.toInt + b.toInt :=
      Int64.toInt_ofInt_of_le h.1 h.2
    rw [addIntegers_of_fits h, Value.int.injEq, ← Int64.toInt_inj, hexact, eq_comm]
  · rw [addIntegers_of_not_fits h]
    refine ⟨fun heq => (by cases heq), fun heq => ?_⟩
    exact (h (heq ▸ fitsInt64_toInt n)).elim

theorem toBinary64?_eq_none_iff {v : Value} : v.toBinary64? = none ↔ v.isNumeric = false := by
  cases v <;> simp [Value.toBinary64?, Value.isNumeric]

theorem add?_eq_none_iff {total v : Value} (h : total.isNumeric) :
    add? total v = none ↔ v.isNumeric = false := by
  fun_cases add? total v with
  | case1 a b => simp [Value.isNumeric]
  | case2 total v =>
    rw [← toBinary64?_eq_none_iff]
    have htotal : total.toBinary64? ≠ none := by simp [toBinary64?_eq_none_iff, h]
    obtain ⟨x, hx⟩ := Option.ne_none_iff_exists'.1 htotal
    cases hv : v.toBinary64? <;> simp [hx]

/-- A sum of two values is one of integers or a floating-point number. -/
theorem add?_cases {total v next : Value} (h : add? total v = some next) :
    (∃ a b, total = .int a ∧ v = .int b ∧ next = addIntegers a b) ∨ ∃ x, next = .float x := by
  revert h
  fun_cases add? total v with
  | case1 a b => exact fun h => .inl ⟨a, b, rfl, rfl, (Option.some.inj h).symm⟩
  | case2 total v =>
    intro h
    obtain ⟨x, -, hx⟩ := Option.bind_eq_some_iff.1 h
    obtain ⟨y, -, hy⟩ := Option.bind_eq_some_iff.1 hx
    exact .inr ⟨_, (Option.some.inj hy).symm⟩

theorem isNumeric_of_add? {total v next : Value} (h : add? total v = some next) :
    next.isNumeric := by
  obtain ⟨a, b, -, -, rfl⟩ | ⟨x, rfl⟩ := add?_cases h
  · rw [addIntegers]
    split <;> rfl
  · rfl

/-- Only two integers come to an integer. -/
theorem add?_eq_int_iff {total v : Value} {n : Int64} : add? total v = some (.int n) ↔
    ∃ a b, total = .int a ∧ v = .int b ∧ n.toInt = a.toInt + b.toInt := by
  constructor
  · intro h
    obtain ⟨a, b, rfl, rfl, hn⟩ | ⟨x, hx⟩ := add?_cases h
    · exact ⟨a, b, rfl, rfl, addIntegers_eq_int_iff.1 hn.symm⟩
    · cases hx
  · rintro ⟨a, b, rfl, rfl, h⟩
    exact congrArg some (addIntegers_eq_int_iff.2 h)

/-! ### A run of additions -/

/-- Integers added one after the other to a start never leave 64 bits. -/
def StaysWithin (start : Int) (ints : List Int64) : Prop :=
  ∀ k, FitsInt64 (start + ((ints.take k).map Int64.toInt).sum)

theorem staysWithin_cons {start : Int} {b : Int64} {ints : List Int64} :
    StaysWithin start (b :: ints) ↔ FitsInt64 start ∧ StaysWithin (start + b.toInt) ints := by
  constructor
  · refine fun h => ⟨by simpa using h 0, fun k => ?_⟩
    simpa [Int.add_assoc] using h (k + 1)
  · rintro ⟨hstart, hrest⟩ k
    cases k with
    | zero => simpa using hstart
    | succ k => simpa [Int.add_assoc] using hrest k

theorem StaysWithin.start {start : Int} {ints : List Int64} (h : StaysWithin start ints) :
    FitsInt64 start := by
  simpa using h 0

variable {name : String} {column rest : List Value} {total v : Value}

theorem present_cons_of_isNull (h : v.isNull) : present (v :: rest) = present rest := by
  simp [present, h]

theorem present_cons (h : v.isNull = false) : present (v :: rest) = v :: present rest := by
  simp [present, h]

theorem sumFrom_cons_of_isNull (h : v.isNull) :
    sumFrom name total (v :: rest) = sumFrom name total rest := by
  rw [sumFrom, if_pos h]

theorem sumFrom_cons_of_none (h : v.isNull = false) (hadd : add? total v = none) :
    sumFrom name total (v :: rest) = .error (.notNumeric "sum" name v.kindName) := by
  rw [sumFrom, h, if_neg Bool.false_ne_true, hadd]

theorem sumFrom_cons_of_some {next : Value} (h : v.isNull = false)
    (hadd : add? total v = some next) :
    sumFrom name total (v :: rest) = sumFrom name next rest := by
  rw [sumFrom, h, if_neg Bool.false_ne_true, hadd]

/-- A sum fails at the first value that is not a number. -/
theorem sumFrom_eq_error_iff {fault : Fault} (h : total.isNumeric) :
    sumFrom name total column = .error fault ↔
      ∃ v, (present column).find? (!·.isNumeric) = some v ∧
        fault = .notNumeric "sum" name v.kindName := by
  induction column generalizing total with
  | nil => simp [sumFrom, present]
  | cons v rest ih =>
    cases hnull : v.isNull with
    | true => rw [sumFrom_cons_of_isNull hnull, present_cons_of_isNull hnull, ih h]
    | false =>
      rw [present_cons hnull]
      cases hadd : add? total v with
      | none =>
        have hv := (add?_eq_none_iff h).1 hadd
        rw [sumFrom_cons_of_none hnull hadd, List.find?_cons_of_pos (by simp [hv])]
        simp [eq_comm]
      | some next =>
        have hv : v.isNumeric := by
          rw [← Bool.not_eq_false, ← add?_eq_none_iff h, hadd]
          exact Option.some_ne_none next
        rw [sumFrom_cons_of_some hnull hadd, List.find?_cons_of_neg (by simp [hv])]
        exact ih (isNumeric_of_add? hadd)

theorem isNumeric_of_sumFrom {result : Value} (h : total.isNumeric)
    (hsum : sumFrom name total column = .ok result) : result.isNumeric := by
  induction column generalizing total with
  | nil =>
    obtain rfl := Except.ok.inj hsum
    exact h
  | cons v rest ih =>
    cases hnull : v.isNull with
    | true => exact ih h (sumFrom_cons_of_isNull hnull ▸ hsum)
    | false =>
      cases hadd : add? total v with
      | none =>
        rw [sumFrom_cons_of_none hnull hadd] at hsum
        cases hsum
      | some next => exact ih (isNumeric_of_add? hadd) (sumFrom_cons_of_some hnull hadd ▸ hsum)

/-- A sum comes to an integer exactly if it adds up integers only and never leaves 64 bits. -/
theorem sumFrom_eq_int_iff {n : Int64} :
    sumFrom name total column = .ok (.int n) ↔
      ∃ a ints, total = .int a ∧ present column = ints.map .int ∧ StaysWithin a.toInt ints ∧
        n.toInt = a.toInt + (ints.map Int64.toInt).sum := by
  induction column generalizing total with
  | nil =>
    constructor
    · intro h
      obtain rfl := Except.ok.inj h
      refine ⟨n, [], rfl, rfl, fun k => ?_, by simp⟩
      simpa using fitsInt64_toInt n
    · rintro ⟨a, ints, rfl, hints, -, hn⟩
      obtain rfl : ints = [] := by simpa [present] using hints.symm
      have hself : n.toInt = a.toInt := by simpa using hn
      rw [sumFrom, Int64.toInt_inj.1 hself]
  | cons v rest ih =>
    cases hnull : v.isNull with
    | true => rw [sumFrom_cons_of_isNull hnull, present_cons_of_isNull hnull, ih]
    | false =>
      rw [present_cons hnull]
      constructor
      · intro h
        cases hadd : add? total v with
        | none =>
          rw [sumFrom_cons_of_none hnull hadd] at h
          cases h
        | some next =>
          rw [sumFrom_cons_of_some hnull hadd, ih] at h
          obtain ⟨c, ints, rfl, hints, hwithin, hn⟩ := h
          obtain ⟨a, b, rfl, rfl, hc⟩ := add?_eq_int_iff.1 hadd
          rw [hc] at hwithin hn
          refine ⟨a, b :: ints, rfl, by rw [hints, List.map_cons], ?_, ?_⟩
          · exact staysWithin_cons.2 ⟨fitsInt64_toInt a, hwithin⟩
          · rw [hn, List.map_cons, List.sum_cons, Int.add_assoc]
      · rintro ⟨a, ints, rfl, hints, hwithin, hn⟩
        cases ints with
        | nil => cases hints
        | cons b ints =>
          obtain ⟨rfl, hrest⟩ := List.cons.inj hints
          have hwithin := (staysWithin_cons.1 hwithin).2
          have hc : (Int64.ofInt (a.toInt + b.toInt)).toInt = a.toInt + b.toInt :=
            Int64.toInt_ofInt_of_le hwithin.start.1 hwithin.start.2
          rw [sumFrom_cons_of_some hnull (add?_eq_int_iff.2 ⟨a, b, rfl, rfl, hc⟩)]
          refine ih.2 ⟨_, ints, rfl, hrest, ?_, ?_⟩
          · rwa [hc]
          · rw [hn, hc, List.map_cons, List.sum_cons, Int.add_assoc]

/-! ### The sum of a column -/

theorem sum_eq_error_iff {fault : Fault} : sum name column = .error fault ↔
    ∃ v, (present column).find? (!·.isNumeric) = some v ∧
      fault = .notNumeric "sum" name v.kindName :=
  sumFrom_eq_error_iff rfl

theorem exists_sum_eq_error_iff : (∃ fault, sum name column = .error fault) ↔
    ∃ v ∈ present column, v.isNumeric = false := by
  simp only [sum_eq_error_iff]
  constructor
  · rintro ⟨-, v, hfind, -⟩
    exact ⟨v, List.mem_of_find?_eq_some hfind, by simpa using List.find?_some hfind⟩
  · rintro ⟨v, hmem, hv⟩
    have hsome : ((present column).find? (!·.isNumeric)).isSome :=
      List.find?_isSome.2 ⟨v, hmem, by simpa using hv⟩
    obtain ⟨first, hfirst⟩ := Option.isSome_iff_exists.1 hsome
    exact ⟨_, first, hfirst, rfl⟩

theorem sum_eq_int_iff {n : Int64} : sum name column = .ok (.int n) ↔
    ∃ ints : List Int64, present column = ints.map .int ∧
      (∀ k, FitsInt64 ((ints.take k).map Int64.toInt).sum) ∧
      n.toInt = (ints.map Int64.toInt).sum := by
  simp [sum, sumFrom_eq_int_iff, StaysWithin]

/-- A sum fails exactly if some value is neither NULL nor a number, and as an invalid argument. What
it returns is an integer or a floating-point number. An integer is the exact sum of the values that
are not NULL, all of them integers, and these have one exactly if no first part of them leaves 64
bits. -/
theorem sum_spec (name : String) (column : List Value) :
    ((∃ fault, sum name column = .error fault) ↔ ∃ v ∈ present column, v.isNumeric = false) ∧
      (∀ fault, sum name column = .error fault → fault.kind = .invalidArgument) ∧
      (∀ total, sum name column = .ok total → (∃ n, total = .int n) ∨ ∃ x, total = .float x) ∧
      (∀ n, sum name column = .ok (.int n) → ∃ ints : List Int64,
        present column = ints.map .int ∧ n.toInt = (ints.map Int64.toInt).sum) ∧
      ((∃ n, sum name column = .ok (.int n)) ↔ ∃ ints : List Int64,
        present column = ints.map .int ∧ ∀ k, FitsInt64 ((ints.take k).map Int64.toInt).sum) := by
  refine ⟨exists_sum_eq_error_iff, ?_, ?_, ?_, ?_⟩
  · intro fault h
    obtain ⟨v, -, rfl⟩ := sum_eq_error_iff.1 h
    rfl
  · intro total h
    have hnum : total.isNumeric := isNumeric_of_sumFrom rfl h
    cases total with
    | int n => exact .inl ⟨n, rfl⟩
    | float x => exact .inr ⟨x, rfl⟩
    | _ => cases hnum
  · intro n h
    obtain ⟨ints, hints, -, hn⟩ := sum_eq_int_iff.1 h
    exact ⟨ints, hints, hn⟩
  · constructor
    · rintro ⟨n, h⟩
      obtain ⟨ints, hints, hfits, -⟩ := sum_eq_int_iff.1 h
      exact ⟨ints, hints, hfits⟩
    · rintro ⟨ints, hints, hfits⟩
      have hall := hfits ints.length
      rw [List.take_length] at hall
      exact ⟨_, sum_eq_int_iff.2 ⟨ints, hints, hfits, Int64.toInt_ofInt_of_le hall.1 hall.2⟩⟩

/-- In another order, the same integers leave 64 bits on the way. -/
theorem sum_spec_largestInteger :
    (∃ ints : List Int64, present [.int Int64.maxValue, .null, .int (-1), .int 1] =
      ints.map .int ∧ Int64.maxValue.toInt = (ints.map Int64.toInt).sum) ∧
      ¬∃ n, sum "size" [.int Int64.maxValue, .int 1, .int (-1)] = .ok (.int n) := by
  constructor
  · exact (sum_spec "size" _).2.2.2.1 Int64.maxValue (by rfl)
  · intro h
    obtain ⟨ints, hints, hfits⟩ := (sum_spec "size" _).2.2.2.2.1 h
    obtain rfl : [Int64.maxValue, 1, -1] = ints :=
      (List.map_inj_right fun _ _ => Value.int.inj).1 hints
    exact absurd (hfits 2) (by unfold FitsInt64; decide)

end Aggregate

end RecordFlow
