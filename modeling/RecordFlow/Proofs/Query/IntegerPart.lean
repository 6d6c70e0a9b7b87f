import RecordFlow.Proofs.Binary64.DecimalRounding
import RecordFlow.Proofs.Value.NumberText
import RecordFlow.Query.Function

/-!
# The integer part of a value

The function INT takes a value for a rational number (`Denotes`): truth values, integers, finite
numbers and texts of integers of 64 bits for what they are, every other text of a number for the
floating-point number nearest to what is written. It truncates this number toward zero, and a result
beyond 64 bits becomes the nearest integer of 64 bits (`clamped`). All other arguments are refused
(`Function.call_int`).
-/

namespace RecordFlow.Query

open Text

/-- The value denotes a number, and is taken for one if it is taken for a number at all. -/
inductive Denotes : Value → ℚ → Option ℚ → Prop where
  | bool (b : Bool) : Denotes (.bool b) b.toNat (some b.toNat)
  | int (n : Int64) : Denotes (.int n) n.toInt (some n.toInt)
  | float {x : Binary64} (hx : x.isFinite) : Denotes (.float x) x.toRat (some x.toRat)
  | shortText {s : String} {w : WrittenNumber} (hs : Surrounds s.toList w.chars)
      (hw : w.IsShort) : Denotes (.text s) w.value (some w.value)
  | roundedText {s : String} {w : WrittenNumber} (hs : Surrounds s.toList w.chars)
      (hw : ¬ w.IsShort) :
      Denotes (.text s) w.value (Binary64.ofDecimal w.sign.negative w.decimal).toRat?

theorem Denotes.isNull_eq_false {v : Value} {q : ℚ} {taken : Option ℚ} (h : Denotes v q taken) :
    v.isNull = false := by
  cases h <;> rfl

theorem value_eq_signed (w : WrittenNumber) :
    w.value = signed w.sign.negative w.decimal.value := by
  rw [WrittenNumber.value, Sign.apply, signed, Decimal.value]
  split
  · push_cast
    rw [neg_mul]
  · rfl

/-- Below `2 ^ 53` every value that denotes a number is taken for one, and has the integer part of
what it denotes unless it is taken for the next whole number. -/
theorem Denotes.exists_taken {v : Value} {q : ℚ} {taken : Option ℚ} (h : Denotes v q taken)
    (hq : |q| < 2 ^ 53) : ∃ p, taken = some p ∧ |p| ≤ ⌊|q|⌋ + 1 ∧
      (truncated p = truncated q ↔ |p| < ⌊|q|⌋ + 1) := by
  have hsame : ∃ p, some q = some p ∧ |p| ≤ ⌊|q|⌋ + 1 ∧
      (truncated p = truncated q ↔ |p| < ⌊|q|⌋ + 1) := by
    have hlt := Int.lt_floor_add_one |q|
    exact ⟨q, rfl, hlt.le, iff_of_true rfl hlt⟩
  cases h with
  | bool | int | float | shortText => exact hsame
  | @roundedText s w hs hw =>
    have habs : |w.value| = w.decimal.value := by
      rw [value_eq_signed, abs_signed _ w.decimal.value_nonneg]
    rw [habs] at hq ⊢
    rw [value_eq_signed]
    obtain ⟨hfinite, hle, htruncated⟩ :=
      Binary64.truncated_ofDecimal_eq_iff w.sign.negative hq
    exact ⟨_, if_pos hfinite, hle, htruncated⟩

/-- The integer of 64 bits nearest to an integer. -/
def clamped (n : Int) : Int :=
  max (-2 ^ 63) (min (2 ^ 63 - 1) n)

theorem clamped_eq_self_iff {n : Int} : clamped n = n ↔ -2 ^ 63 ≤ n ∧ n < 2 ^ 63 := by
  rw [clamped]
  omega

theorem clamped_truncated_of_abs_le {p : ℚ} (h : |p| ≤ 2 ^ 53) :
    clamped (truncated p) = truncated p := by
  have hle : |truncated p| ≤ 2 ^ 53 := by
    have habs := (abs_truncated_le p).trans h
    exact_mod_cast habs
  rw [abs_le] at hle
  rw [clamped_eq_self_iff]
  omega

namespace Function

/-- What the function gives for the number that a value is taken for. -/
def integerPart (q : ℚ) : Value :=
  .int (Int64.ofInt (clamped (truncated q)))

theorem integral_float (x : Binary64) : integral (.float x) = x.toRat?.map integerPart := by
  rw [integral, Binary64.toRat?]
  split
  · rw [Option.map_some, integerPart, ← Binary64.truncate_eq]
    rfl
  · rfl

theorem integerPart_intCast {n : Int} (h : -2 ^ 63 ≤ n ∧ n < 2 ^ 63) :
    integerPart n = .int (Int64.ofInt n) := by
  rw [integerPart, truncated_intCast, clamped_eq_self_iff.2 h]

theorem integral_int (n : Int64) : integral (.int n) = some (integerPart n.toInt) := by
  rw [integerPart_intCast ⟨n.le_toInt, n.toInt_lt⟩, Int64.ofInt_toInt]
  rfl

/-- A value that denotes a number has the integer part of what it is taken for. -/
theorem toInteger_of_denotes {v : Value} {q : ℚ} {taken : Option ℚ} (h : Denotes v q taken) :
    toInteger v = taken.map integerPart := by
  cases h with
  | bool b =>
    have hrange : -2 ^ 63 ≤ (b.toNat : Int) ∧ (b.toNat : Int) < 2 ^ 63 := by cases b <;> decide
    rw [Option.map_some, ← Int.cast_natCast, integerPart_intCast hrange]
    cases b <;> rfl
  | int n => exact integral_int n
  | float hx =>
    have htoRat : Binary64.toRat? _ = some _ := if_pos hx
    rw [← htoRat]
    exact integral_float _
  | @shortText s w hs hw =>
    obtain ⟨hwhole, hrange⟩ := hw
    rw [toInteger, Value.coerce_text_eq hs, WrittenNumber.number, if_pos ⟨hwhole, hrange⟩,
      Option.bind_some, Option.map_some, hwhole.value_eq, integerPart_intCast hrange]
    rfl
  | @roundedText s w hs hw =>
    rw [toInteger, Value.coerce_text_eq hs, WrittenNumber.number, if_neg hw, Option.bind_some,
      integral_float]

/-- Only a value that denotes a number has an integer part. -/
theorem exists_denotes_of_toInteger {v u : Value} (h : toInteger v = some u) :
    ∃ q p, Denotes v q (some p) := by
  cases v with
  | bool b => exact ⟨_, _, .bool b⟩
  | int n => exact ⟨_, _, .int n⟩
  | float x =>
    by_cases hx : x.isFinite
    · exact ⟨_, _, .float hx⟩
    · have hnone : integral (.float x) = none := if_neg hx
      cases hnone.symm.trans h
  | text s =>
    obtain ⟨number, hnumber, hintegral⟩ := Option.bind_eq_some_iff.1 h
    rcases numberOfText?_eq_some_iff.1 hnumber with ⟨w, hw, rfl⟩ | ⟨x, hword, rfl⟩
    · have hs : Surrounds s.toList w.chars := hw ▸ surrounds_trim s.toList
      by_cases hshort : w.IsShort
      · exact ⟨_, _, .shortText hs hshort⟩
      · rw [WrittenNumber.number, if_neg hshort, integral_float] at hintegral
        obtain ⟨p, hp, -⟩ := Option.map_eq_some_iff.1 hintegral
        have hdenotes := Denotes.roundedText hs hshort
        rw [hp] at hdenotes
        exact ⟨_, _, hdenotes⟩
    · have hnone : integral (.float x) = none := if_neg (by simp [hword.isFinite_eq_false])
      cases hnone.symm.trans hintegral
  | null | timestamp | list | struct => cases h

theorem call_int_eq {v : Value} (hv : v.isNull = false) (now : Timestamp) :
    call now .int [v] = match toInteger v with
      | some u => .ok u
      | none => .error (.badArguments "INT" [v]) := by
  have hnull : [v].head?.any Value.isNull = false := hv
  unfold call
  simp only [arity, List.length_singleton, Nat.lt_irrefl, decide_false, Bool.or_false,
    Bool.false_eq_true, if_false, hnull]
  rfl

/-- What the function gives is the integer part of the number that a value is taken for, held within
64 bits. -/
theorem call_int_of_denotes (now : Timestamp) {v : Value} {q p : ℚ} (h : Denotes v q (some p)) :
    ∃ n : Int64, call now .int [v] = .ok (.int n) ∧ n.toInt = clamped (truncated p) := by
  have hrange : -2 ^ 63 ≤ clamped (truncated p) ∧ clamped (truncated p) < 2 ^ 63 := by
    rw [clamped]
    omega
  refine ⟨Int64.ofInt (clamped (truncated p)), ?_, Int64.toInt_ofInt_of_le hrange.1 hrange.2⟩
  rw [call_int_eq h.isNull_eq_false, toInteger_of_denotes h]
  rfl

/-- A value that denotes no number is refused, unless it is NULL. -/
theorem call_int_of_not_denotes (now : Timestamp) {v : Value} (hv : v.isNull = false)
    (h : ∀ q p, ¬ Denotes v q (some p)) :
    call now .int [v] = .error (.badArguments "INT" [v]) := by
  cases hvalue : toInteger v with
  | some u =>
    obtain ⟨q, p, hdenotes⟩ := exists_denotes_of_toInteger hvalue
    exact absurd hdenotes (h q p)
  | none => rw [call_int_eq hv, hvalue]

/-- The function gives the integer part of the number that a value is taken for, held within 64
bits. This is the integer part of what the value denotes if it is taken for just that and its
integer part fits, and below `2 ^ 53` exactly if it is not taken for the next whole number. Every
other value but NULL is an invalid argument. -/
theorem call_int (now : Timestamp) {v : Value} (hv : v.isNull = false) :
    (∀ q p, Denotes v q (some p) →
      ∃ n : Int64, call now .int [v] = .ok (.int n) ∧ n.toInt = clamped (truncated p)) ∧
    (∀ q, Denotes v q (some q) → -2 ^ 63 ≤ truncated q → truncated q < 2 ^ 63 →
      ∃ n : Int64, call now .int [v] = .ok (.int n) ∧ n.toInt = truncated q) ∧
    (∀ q taken, Denotes v q taken → |q| < 2 ^ 53 →
      ∃ p, taken = some p ∧ ∃ n : Int64, call now .int [v] = .ok (.int n) ∧
        (n.toInt = truncated q ↔ |p| < ⌊|q|⌋ + 1)) ∧
    ((∀ q p, ¬ Denotes v q (some p)) →
      ∃ fault, call now .int [v] = .error fault ∧ fault.kind = .invalidArgument) := by
  refine ⟨fun q p => call_int_of_denotes now, ?_, ?_, ?_⟩
  · intro q h hlow hhigh
    obtain ⟨n, hcall, hn⟩ := call_int_of_denotes now h
    exact ⟨n, hcall, hn.trans (clamped_eq_self_iff.2 ⟨hlow, hhigh⟩)⟩
  · intro q taken h hq
    obtain ⟨p, rfl, hle, htruncated⟩ := h.exists_taken hq
    obtain ⟨n, hcall, hn⟩ := call_int_of_denotes now h
    have hfloor : (⌊|q|⌋ : ℚ) + 1 ≤ 2 ^ 53 := by
      have hlt : ⌊|q|⌋ < 2 ^ 53 := Int.floor_lt.2 (by exact_mod_cast hq)
      exact_mod_cast hlt
    rw [clamped_truncated_of_abs_le (hle.trans hfloor)] at hn
    exact ⟨p, rfl, n, hcall, by rw [hn, htruncated]⟩
  · intro h
    exact ⟨_, call_int_of_not_denotes now hv h, rfl⟩

theorem nonempty_timestamp : Nonempty Timestamp :=
  ⟨⟨2021, 3, 4, by decide, by decide, by decide⟩,
    ⟨5, 6, 7, 0, by decide, by decide, by decide, by decide⟩⟩

/-- `-2.75` as it is written. -/
def negativeNumber : WrittenNumber :=
  ⟨.minus, ['2'], some ['7', '5'], none, areDigits_iff.1 (by decide)⟩

theorem call_int_negativeNumber : (Value.text " -2.75").isNull = false ∧
    Denotes (.text " -2.75") (-11 / 4) (some (-11 / 4)) ∧ truncated (-11 / 4) = -2 ∧
    ∃ (now : Timestamp) (n : Int64), call now .int [.text " -2.75"] = .ok (.int n) ∧
      n.toInt = truncated (-11 / 4) := by
  have hs : Surrounds " -2.75".toList negativeNumber.chars :=
    ⟨[' '], [], List.all_iff_forall_prop.1 (by decide), by simp, rfl⟩
  have hvalue : negativeNumber.value = -11 / 4 := by
    rw [value_eq_signed]
    decide +kernel
  have htaken : (Binary64.ofDecimal negativeNumber.sign.negative negativeNumber.decimal).toRat? =
      some (-11 / 4) := by decide +kernel
  have hdenotes : Denotes (.text " -2.75") (-11 / 4) (some (-11 / 4)) := by
    have hrounded := Denotes.roundedText hs (show ¬ negativeNumber.IsShort by decide)
    rwa [hvalue, htaken] at hrounded
  have htruncated : truncated (-11 / 4) = -2 := by decide +kernel
  obtain ⟨now⟩ := nonempty_timestamp
  obtain ⟨-, hexact, -⟩ := call_int now (v := .text " -2.75") rfl
  refine ⟨rfl, hdenotes, htruncated, now, hexact _ hdenotes ?_ ?_⟩ <;> rw [htruncated] <;> decide

/-- `10 ^ 19` does not fit in 64 bits, and the largest integer that does takes its place. A text
just below one is rounded up to it. -/
theorem call_int_not_of_clamped : ∃ now : Timestamp,
    (Binary64.ofInt 10000000000000000000).isFinite ∧
    (Binary64.ofInt 10000000000000000000).toRat = 10000000000000000000 ∧
    call now .int [.float (.ofInt 10000000000000000000)] = .ok (.int 9223372036854775807) ∧
    call now .int [.text "0.99999999999999999999"] = .ok (.int 1) := by
  have hclamped : toInteger (.float (.ofInt 10000000000000000000)) =
      some (.int 9223372036854775807) := by decide +kernel
  have hrounded : toInteger (.text "0.99999999999999999999") = some (.int 1) := by decide +kernel
  obtain ⟨now⟩ := nonempty_timestamp
  refine ⟨now, by decide +kernel, by decide +kernel, ?_, ?_⟩
  · rw [call_int_eq rfl, hclamped]
  · rw [call_int_eq rfl, hrounded]

end Function

end RecordFlow.Query
