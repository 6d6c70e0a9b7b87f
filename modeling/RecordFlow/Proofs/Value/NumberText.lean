import RecordFlow.Proofs.Text.NumberReading
import RecordFlow.Proofs.Value.EqualityLaws
import RecordFlow.Proofs.Value.Feed
import RecordFlow.Proofs.Value.NumberOrder
import RecordFlow.Proofs.Value.PlainRoundTrip
import RecordFlow.Value.Coercion

/-!
# The numbers that texts denote

A text denotes a number if it is the writing of one (`Text.WrittenNumber.number`) or a word with a
sign (`numberOfText?_eq_some_iff`). Digits alone denote their integer as long as this has 64 bits,
and the floating-point number nearest to it from there on (`Text.WrittenNumber.number_of_isWhole`).
So texts of integers that are values (`Value.HoldsInteger`) are equal as numbers only if the
integers are; others can be rounded to one number, but never past each other
(`Value.coerce_wholeText`).
-/

namespace RecordFlow

namespace Text

/-- The number that is written: an integer if it is written as one of 64 bits. -/
def WrittenNumber.number (w : WrittenNumber) : Value :=
  if w.IsShort then .int (Int64.ofInt w.integer)
  else .float (Binary64.ofDecimal w.sign.negative w.decimal)

end Text

open Text WrittenNumber

/-- What is written as a number is read as that number. -/
theorem numberOfText?_chars (w : WrittenNumber) : numberOfText? w.chars = some w.number := by
  have hread : readBinary64? w.chars = some (Binary64.ofDecimal w.sign.negative w.decimal) :=
    readBinary64?_eq_some_iff.2 (.inl ⟨w, rfl, rfl⟩)
  rw [numberOfText?, if_pos w.beginsLikeNumber_chars, w.readInt64?_chars, WrittenNumber.number]
  by_cases hshort : w.IsShort
  · rw [if_pos hshort, if_pos hshort]
  · rw [if_neg hshort, if_neg hshort]
    simp only [hread, Option.map_some]

/-- A text denotes the number that is written, or else what a word with a sign names. -/
theorem numberOfText?_eq_some_iff {cs : List Char} {v : Value} : numberOfText? cs = some v ↔
    (∃ w : WrittenNumber, w.chars = cs ∧ w.number = v) ∨ ∃ x, SignedWord cs x ∧ .float x = v := by
  constructor
  · intro h
    have hwritten (w : WrittenNumber) (hw : w.chars = cs) : w.number = v := by
      rw [← hw, numberOfText?_chars] at h
      exact Option.some.inj h
    have hcases := h
    rw [numberOfText?] at hcases
    split at hcases
    · next hbegins =>
      split at hcases
      · next n hn =>
        obtain ⟨w, hw, -⟩ := exists_of_readInt64? hn
        exact .inl ⟨w, hw, hwritten w hw⟩
      · obtain ⟨x, hx, hv⟩ := Option.map_eq_some_iff.1 hcases
        rcases readBinary64?_eq_some_iff.1 hx with ⟨w, hw, -⟩ | ⟨s, word, rfl, hnames⟩
        · exact .inl ⟨w, hw, hwritten w hw⟩
        · rw [hnames.beginsLikeNumber_append, decide_eq_true_eq] at hbegins
          exact .inr ⟨x, ⟨s, word, hbegins, rfl, hnames⟩, hv⟩
    · cases hcases
  · rintro (⟨w, rfl, rfl⟩ | ⟨x, ⟨s, word, hsign, rfl, hnames⟩, rfl⟩)
    · exact numberOfText?_chars w
    · have hread : readBinary64? (s.chars ++ word) = some x :=
        readBinary64?_eq_some_iff.2 (.inr ⟨s, word, rfl, hnames⟩)
      rw [numberOfText?, hnames.beginsLikeNumber_append, decide_eq_true hsign, if_pos rfl,
        hnames.readInt64?_eq_none]
      simp only [hread, Option.map_some]

/-! ### Digits alone -/

/-- Rounding the digits of an integer is rounding the integer, unless the sign of zero counts. -/
theorem Text.WrittenNumber.ofDecimal_of_isWhole {w : WrittenNumber} (h : w.IsWhole)
    (hne : w.integer ≠ 0) :
    Binary64.ofDecimal w.sign.negative w.decimal = Binary64.ofInt w.integer := by
  have hdigits : Nat.ofDigitChars 10 w.whole 0 ≠ 0 := by
    intro hzero
    rw [integer, hzero, Sign.apply] at hne
    simp at hne
  have hsmall : ¬ (0 : Int) + (Nat.toDigits 10 (Nat.ofDigitChars 10 w.whole 0)).length < -400 := by
    omega
  have hnegative : decide (w.integer < 0) = w.sign.negative := by
    rw [integer, Sign.apply]
    cases w.sign.negative
    · simp
    · simp only [if_true, decide_eq_true_eq]
      omega
  have hsize : w.integer.natAbs = Nat.ofDigitChars 10 w.whole 0 := by
    rw [integer, Sign.apply]
    split <;> omega
  have hlarge : ¬ (400 : Int) < 0 := by decide
  rw [h.decimal_eq, Binary64.ofDecimal, if_neg hdigits, if_neg hlarge, if_neg hsmall,
    if_pos (Int.le_refl 0), Int.toNat_zero, Nat.pow_zero, Nat.mul_one, Binary64.ofInt, hnegative,
    hsize]

/-- Digits alone denote their integer, or the floating-point number nearest to it. -/
theorem Text.WrittenNumber.number_of_isWhole {w : WrittenNumber} (h : w.IsWhole) :
    w.number = Value.ofInteger w.integer := by
  rw [number, Value.ofInteger]
  by_cases hshort : -2 ^ 63 ≤ w.integer ∧ w.integer < 2 ^ 63
  · rw [if_pos ⟨h, hshort⟩, if_pos (by simpa using hshort)]
  · rw [if_neg fun hw => hshort hw.2, if_neg (by simpa using hshort),
      ofDecimal_of_isWhole h (by omega)]

namespace Value

/-- White space around a number does not matter. -/
theorem coerce_text_eq {s : String} {w : WrittenNumber} (h : Surrounds s.toList w.chars) :
    (text s).coerce .numeric = some w.number := by
  have htrim : trim s.toList = w.chars := (trim_eq_iff fun c hc => w.isBlank_of_mem_chars hc).2 h
  rw [coerce, htrim, numberOfText?_chars]

/-! ### Integers as numbers -/

/-- The integer is the exact value of a number of one of the two kinds. -/
def HoldsInteger (n : Int) : Prop :=
  (-2 ^ 63 ≤ n ∧ n < 2 ^ 63) ∨ Binary64.HoldsInteger n

theorem ofInteger_cases (n : Int) :
    ((-2 ^ 63 ≤ n ∧ n < 2 ^ 63) ∧ ofInteger n = .int (Int64.ofInt n) ∧
      (Int64.ofInt n).toInt = n) ∨
    (¬ (-2 ^ 63 ≤ n ∧ n < 2 ^ 63) ∧ ofInteger n = .float (.ofInt n)) := by
  rw [ofInteger]
  by_cases hfits : -2 ^ 63 ≤ n ∧ n < 2 ^ 63
  · exact .inl ⟨hfits, if_pos (by simpa using hfits), Int64.toInt_ofInt_of_le hfits.1 hfits.2⟩
  · exact .inr ⟨hfits, if_neg (by simpa using hfits)⟩

theorem isNumeric_ofInteger (n : Int) : (ofInteger n).isNumeric := by
  rcases ofInteger_cases n with ⟨-, h, -⟩ | ⟨-, h⟩ <;> rw [h] <;> rfl

theorem isNaN_ofInteger (n : Int) : (ofInteger n).isNaN = false := by
  rcases ofInteger_cases n with ⟨-, h, -⟩ | ⟨-, h⟩ <;> rw [h]
  · rfl
  · exact Binary64.isNaN_ofInt n

/-- An integer has its own place exactly if it is the exact value of a number. -/
theorem place?_ofInteger_eq_iff (n : Int) :
    (ofInteger n).place? = some (((n : ℚ) : WithTop ℚ) : WithBot (WithTop ℚ)) ↔
      HoldsInteger n := by
  rcases ofInteger_cases n with ⟨hfits, h, htoInt⟩ | ⟨hfits, h⟩
  · rw [h, place?, htoInt]
    exact iff_of_true rfl (.inl hfits)
  · rw [h, HoldsInteger, or_iff_right hfits, ← Binary64.ofInt_eq_iff_holdsInteger]
    have hnan := Binary64.isNaN_ofInt n
    rw [place?, Binary64.exactValue?, hnan, if_neg Bool.false_ne_true,
      ← ExactNumber.onLine_finite_mul_unitsPerOne]
    cases hinf : (Binary64.ofInt n).isInfinite with
    | true =>
      have hfinite : ¬ (Binary64.ofInt n).isFinite := fun hfinite => by
        rw [Binary64.isInfinite_of_isFinite hfinite] at hinf
        cases hinf
      rw [if_pos rfl, Option.map_some, Option.some_inj, ExactNumber.onLine_injective.eq_iff]
      exact iff_of_false (fun h => ExactNumber.noConfusion h) fun h => hfinite h.1
    | false =>
      have hfinite := Binary64.isFinite_of_not hnan hinf
      rw [if_neg Bool.false_ne_true, Option.map_some, Option.some_inj,
        ExactNumber.onLine_injective.eq_iff, ExactNumber.finite.injEq, and_iff_right hfinite]

/-- Integers that are exact values of numbers are equal as numbers only if they are equal. -/
theorem equal_ofInteger_iff {m n : Int} (hm : HoldsInteger m) (hn : HoldsInteger n) :
    (ofInteger m).equal (ofInteger n) ↔ m = n := by
  have hscalar : (ofInteger m).isScalar := by
    rcases ofInteger_cases m with ⟨-, h, -⟩ | ⟨-, h⟩ <;> rw [h] <;> rfl
  obtain ⟨x, y, hx, hy, hcompare⟩ := (compare?_eq_compare_place (ofInteger m) (ofInteger n)
    (isNumeric_ofInteger m) (isNumeric_ofInteger n)).1 (isNaN_ofInteger m) (isNaN_ofInteger n)
  obtain rfl := Option.some.inj (hx.symm.trans ((place?_ofInteger_eq_iff m).2 hm))
  obtain rfl := Option.some.inj (hy.symm.trans ((place?_ofInteger_eq_iff n).2 hn))
  rw [equal_iff_of_isScalar hscalar, hcompare, Option.some_inj, compare_eq_iff_eq]
  simp

/-- The difference of an integer from the number nearest to it, if it has 64 bits. -/
def residual (n : Int) : Int :=
  if -2 ^ 63 ≤ n ∧ n < 2 ^ 63 then n - (Binary64.ofInt n).truncate else 0

theorem parts?_ofInteger (n : Int) :
    (ofInteger n).parts? = some (Binary64.ofInt n, residual n) := by
  rw [residual]
  rcases ofInteger_cases n with ⟨hfits, h, htoInt⟩ | ⟨hfits, h⟩
  · rw [h, parts?, htoInt, if_pos hfits]
  · rw [h, parts?_float (Binary64.isNaN_ofInt n), if_neg hfits]

/-- Of integers that are rounded to one number the larger one does not lie farther below it. -/
theorem residual_mono {m n : Int} (h : m ≤ n)
    (htruncate : (Binary64.ofInt m).truncate = (Binary64.ofInt n).truncate) :
    residual m ≤ residual n := by
  have hlow : (Binary64.ofInt (-2 ^ 63)).truncate = -2 ^ 63 := by decide +kernel
  have hhigh : (Binary64.ofInt (2 ^ 63)).truncate = 2 ^ 63 := by decide +kernel
  have hmono {j k : Int} (h : j ≤ k) : (Binary64.ofInt j).truncate ≤ (Binary64.ofInt k).truncate :=
    Binary64.truncate_mono (Binary64.rank_ofInt_mono h)
  rw [residual, residual]
  split <;> split
  · omega
  · have hn := hmono (show 2 ^ 63 ≤ n by omega)
    omega
  · have hm := hmono (show m ≤ -2 ^ 63 by omega)
    omega
  · omega

/-- Integers that are read as numbers never change places. -/
theorem compare?_ofInteger_ne_gt {m n : Int} (h : m ≤ n) :
    compare? (ofInteger m) (ofInteger n) ≠ some .gt := by
  have hrank := Binary64.rank_ofInt_mono h
  rw [compare?_of_parts (parts?_ofInteger m) (parts?_ofInteger n), ne_eq, Option.some_inj]
  rcases Int.lt_or_eq_of_le hrank with hlt | heq
  · rw [Int.compare_eq_lt.2 hlt]
    exact Ordering.noConfusion
  · have hresidual := residual_mono h (Binary64.truncate_eq_of_rank_eq heq)
    rw [Int.compare_eq_eq.2 heq, Ordering.eq_then, Int.compare_eq_gt]
    omega

/-! ### Texts of integers -/

/-- Texts of integers, with white space around them or not, are numbers in a numeric column. Such a
number is the integer exactly if this has 64 bits or is a floating-point number. Two such integers
are equal as numbers only if they are equal, and no two integers change places. -/
theorem coerce_wholeText {s t : String} {w w' : WrittenNumber} (hw : w.IsWhole)
    (hw' : w'.IsWhole) (hs : Surrounds s.toList w.chars) (ht : Surrounds t.toList w'.chars) :
    ∃ u v, (text s).coerce .numeric = some u ∧ (text t).coerce .numeric = some v ∧
      (u.place? = some (((w.integer : ℚ) : WithTop ℚ) : WithBot (WithTop ℚ)) ↔
        HoldsInteger w.integer) ∧
      (HoldsInteger w.integer → HoldsInteger w'.integer →
        (u.equal v ↔ w.integer = w'.integer)) ∧
      (w.integer ≤ w'.integer → compare? u v ≠ some .gt) := by
  refine ⟨ofInteger w.integer, ofInteger w'.integer, ?_, ?_, place?_ofInteger_eq_iff _,
    equal_ofInteger_iff, compare?_ofInteger_ne_gt⟩
  · rw [coerce_text_eq hs, w.number_of_isWhole hw]
  · rw [coerce_text_eq ht, w'.number_of_isWhole hw']

theorem holdsInteger_twoPow63 : HoldsInteger 9223372036854775808 :=
  .inr (Binary64.holdsInteger_mul_two_pow (s := 1) (k := 63) (by decide) (by decide))

/-- One more than `2 ^ 53`, as an integer of 64 bits, and `2 ^ 63`, as a floating-point number. -/
theorem coerce_wholeText_powersOfTwo :
    HoldsInteger 9007199254740993 ∧ HoldsInteger 9223372036854775808 ∧
    ∃ u v, (text " +9007199254740993\n").coerce .numeric = some u ∧
      (text "9223372036854775808").coerce .numeric = some v ∧
      u.place? = some (((9007199254740993 : ℚ) : WithTop ℚ) : WithBot (WithTop ℚ)) ∧
      ¬ u.equal v ∧ compare? u v ≠ some .gt := by
  have hdigits : Json.AreDigits "9007199254740993".toList := areDigits_iff.1 (by decide)
  have hdigits' : Json.AreDigits "9223372036854775808".toList := areDigits_iff.1 (by decide)
  have hspace : Surrounds " +9007199254740993\n".toList (ofDigits .plus _ hdigits).chars := by
    rw [chars_ofDigits]
    exact ⟨[' '], ['\n'], List.all_iff_forall_prop.1 (by decide),
      List.all_iff_forall_prop.1 (by decide), rfl⟩
  have hbare : Surrounds "9223372036854775808".toList (ofDigits .none _ hdigits').chars := by
    rw [chars_ofDigits]
    exact surrounds_self _
  have hsmall : HoldsInteger 9007199254740993 := .inl (by decide)
  obtain ⟨u, v, hu, hv, hplace, hequal, horder⟩ := coerce_wholeText
    (isWhole_ofDigits .plus hdigits) (isWhole_ofDigits .none hdigits') hspace hbare
  have hlt : (ofDigits .plus _ hdigits).integer < (ofDigits .none _ hdigits').integer := by
    rw [integer_ofDigits, integer_ofDigits]
    decide
  refine ⟨hsmall, holdsInteger_twoPow63, u, v, hu, hv, hplace.2 hsmall, ?_, horder hlt.le⟩
  rw [hequal hsmall holdsInteger_twoPow63]
  exact hlt.ne

/-- Integers of 65 bits are rounded to 53: the text of one is a number that is not this integer, and
is equal to the number that another one is. -/
theorem coerce_wholeText_not_of_rounded :
    (text "9223372036854775809").coerce .numeric = some (.float ⟨0x43E0000000000000⟩) ∧
    (text "9223372036854775808").coerce .numeric = some (.float ⟨0x43E0000000000000⟩) ∧
    (float ⟨0x43E0000000000000⟩).place? =
      some (((9223372036854775808 : ℚ) : WithTop ℚ) : WithBot (WithTop ℚ)) ∧
    (float ⟨0x43E0000000000000⟩).equal (float ⟨0x43E0000000000000⟩) := by
  refine ⟨by decide +kernel, by decide +kernel, ?_, by decide +kernel⟩
  have hinteger : ofInteger 9223372036854775808 = .float ⟨0x43E0000000000000⟩ := by decide +kernel
  have hplace := place?_ofInteger_eq_iff 9223372036854775808
  rw [hinteger] at hplace
  exact hplace.2 holdsInteger_twoPow63

end Value

end RecordFlow
