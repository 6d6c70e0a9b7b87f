import Mathlib.Algebra.Order.Field.Rat
import Mathlib.Data.Bool.AllAny
import RecordFlow.Proofs.Json.NumeralText
import RecordFlow.Proofs.Timestamp.RoundTrip
import RecordFlow.Text.Blank

/-!
# Numbers as they are written

A `WrittenNumber` is a sign, digits with a point among them or none, and an exponent or none.
`WrittenNumber.chars` is its text, `WrittenNumber.decimal` what it says without its sign, and
`WrittenNumber.value` the rational number that it stands for. Digits alone stand for an integer
(`WrittenNumber.IsWhole`, `WrittenNumber.value_eq`).
-/

namespace RecordFlow.Text

/-! ### Signs -/

/-- A sign as it is written. -/
inductive Sign where
  | none
  | plus
  | minus
deriving DecidableEq, Repr

namespace Sign

def chars : Sign → List Char
  | none => []
  | plus => ['+']
  | minus => ['-']

def negative : Sign → Bool
  | minus => true
  | _ => false

/-- The number of a size with this sign. -/
def apply (s : Sign) (size : Nat) : Int :=
  if s.negative then -size else size

end Sign

/-! ### Exponents -/

/-- The letter, the sign and the digits of an exponent. -/
structure WrittenExponent where
  letter : Char
  sign : Sign
  digits : List Char
  isLetter : letter = 'e' ∨ letter = 'E'
  areDigits : Json.AreDigits digits

namespace WrittenExponent

def chars (e : WrittenExponent) : List Char :=
  e.letter :: (e.sign.chars ++ e.digits)

def value (e : WrittenExponent) : Int :=
  e.sign.apply (Nat.ofDigitChars 10 e.digits 0)

end WrittenExponent

/-! ### Numbers -/

/-- A number as it is written, with at least one digit. -/
structure WrittenNumber where
  sign : Sign
  whole : List Char
  /-- The digits behind the point, if there is one. -/
  fraction : Option (List Char)
  exponent : Option WrittenExponent
  areDigits : Json.AreDigits (whole ++ fraction.getD [])

namespace WrittenNumber

/-- The digits before and behind the point. -/
def digits (w : WrittenNumber) : List Char :=
  w.whole ++ w.fraction.getD []

def fractionChars (w : WrittenNumber) : List Char :=
  w.fraction.elim [] ('.' :: ·)

def exponentChars (w : WrittenNumber) : List Char :=
  w.exponent.elim [] WrittenExponent.chars

/-- The number without its sign. -/
def body (w : WrittenNumber) : List Char :=
  w.whole ++ (w.fractionChars ++ w.exponentChars)

def chars (w : WrittenNumber) : List Char :=
  w.sign.chars ++ w.body

/-- The digits as one number, and the power of ten that goes with it. -/
def decimal (w : WrittenNumber) : Decimal where
  digits := Nat.ofDigitChars 10 w.digits 0
  exponent := w.exponent.elim 0 WrittenExponent.value - (w.fraction.getD []).length

/-- The rational number that is written. -/
def value (w : WrittenNumber) : ℚ :=
  w.sign.apply w.decimal.digits * 10 ^ w.decimal.exponent

/-- Digits alone, without point and exponent. -/
def IsWhole (w : WrittenNumber) : Prop :=
  w.fraction = none ∧ w.exponent.isNone

instance (w : WrittenNumber) : Decidable w.IsWhole :=
  inferInstanceAs (Decidable (_ ∧ _))

def ofDigits (sign : Sign) (digits : List Char) (h : Json.AreDigits digits) : WrittenNumber where
  sign := sign
  whole := digits
  fraction := none
  exponent := none
  areDigits := by rwa [Option.getD_none, List.append_nil]

theorem isWhole_ofDigits (sign : Sign) {digits : List Char} (h : Json.AreDigits digits) :
    (ofDigits sign digits h).IsWhole :=
  ⟨rfl, rfl⟩

theorem chars_ofDigits (sign : Sign) {digits : List Char} (h : Json.AreDigits digits) :
    (ofDigits sign digits h).chars = sign.chars ++ digits := by
  simp [ofDigits, chars, body, fractionChars, exponentChars]

/-- The integer that digits alone stand for. -/
def integer (w : WrittenNumber) : Int :=
  w.sign.apply (Nat.ofDigitChars 10 w.whole 0)

theorem integer_ofDigits (sign : Sign) {digits : List Char} (h : Json.AreDigits digits) :
    (ofDigits sign digits h).integer = sign.apply (Nat.ofDigitChars 10 digits 0) := rfl

/-- An integer as it is written, without a plus. -/
def ofInt (n : Int) : WrittenNumber :=
  ofDigits (if n < 0 then .minus else .none) (Nat.toDigits 10 n.natAbs) (Json.areDigits_toDigits _)

theorem chars_ofInt (n : Int) : (ofInt n).chars = Json.intChars n := by
  rw [ofInt, chars_ofDigits, Json.intChars]
  split <;> rfl

theorem integer_ofInt (n : Int) : (ofInt n).integer = n := by
  rw [ofInt, integer_ofDigits, Nat.ofDigitChars_ten_toDigits, Sign.apply]
  split
  · next h => simp only [Sign.negative, if_true]; omega
  · next h => simp only [Sign.negative, Bool.false_eq_true, if_false]; omega

variable {w : WrittenNumber}

theorem IsWhole.exponent_eq (h : w.IsWhole) : w.exponent = none :=
  Option.isNone_iff_eq_none.1 h.2

theorem IsWhole.areDigits (h : w.IsWhole) : Json.AreDigits w.whole := by
  have hdigits := w.areDigits
  rwa [h.1, Option.getD_none, List.append_nil] at hdigits

theorem IsWhole.body_eq (h : w.IsWhole) : w.body = w.whole := by
  simp [body, fractionChars, exponentChars, h.1, h.exponent_eq]

theorem IsWhole.decimal_eq (h : w.IsWhole) :
    w.decimal = ⟨Nat.ofDigitChars 10 w.whole 0, 0⟩ := by
  simp [decimal, digits, h.1, h.exponent_eq]

theorem IsWhole.value_eq (h : w.IsWhole) : w.value = w.integer := by
  rw [value, h.decimal_eq, zpow_zero, mul_one, integer]

/-- Digits alone that stand for an integer of 64 bits. -/
def IsShort (w : WrittenNumber) : Prop :=
  w.IsWhole ∧ -2 ^ 63 ≤ w.integer ∧ w.integer < 2 ^ 63

instance (w : WrittenNumber) : Decidable w.IsShort :=
  inferInstanceAs (Decidable (_ ∧ _ ∧ _))

theorem isDigit_of_mem_whole {c : Char} (h : c ∈ w.whole) : c.isDigit :=
  w.areDigits.2 c (List.mem_append_left _ h)

theorem isDigit_of_mem_fraction {ds : List Char} (hds : w.fraction = some ds) {c : Char}
    (h : c ∈ ds) : c.isDigit :=
  w.areDigits.2 c (List.mem_append_right _ (by rwa [hds]))

/-- Numbers are written with digits, signs, a point and a letter. -/
theorem mem_chars {c : Char} (h : c ∈ w.chars) : c.isDigit ∨ c ∈ ['+', '-', '.', 'e', 'E'] := by
  have hsign : ∀ {s : Sign}, c ∈ s.chars → c ∈ ['+', '-', '.', 'e', 'E'] := by
    intro s hc
    cases s <;> simp [Sign.chars] at hc <;> simp [hc]
  simp only [chars, body, List.mem_append] at h
  rcases h with h | h | h | h
  · exact .inr (hsign h)
  · exact .inl (isDigit_of_mem_whole h)
  · cases hcase : w.fraction with
    | none => simp [fractionChars, hcase] at h
    | some ds =>
      rw [fractionChars, hcase] at h
      rcases List.mem_cons.1 h with rfl | h
      · exact .inr (by simp)
      · exact .inl (isDigit_of_mem_fraction hcase h)
  · cases hcase : w.exponent with
    | none => simp [exponentChars, hcase] at h
    | some e =>
      rw [exponentChars, hcase] at h
      rcases List.mem_cons.1 h with rfl | h
      · exact .inr (by rcases e.isLetter with h | h <;> simp [h])
      · rcases List.mem_append.1 h with h | h
        · exact .inr (hsign h)
        · exact .inl (e.areDigits.2 c h)

theorem isBlank_of_mem_chars {c : Char} (h : c ∈ w.chars) : isBlank c = false := by
  rcases mem_chars h with h | h
  · exact Timestamp.isBlank_of_isDigit h
  · have hall : ∀ c ∈ ['+', '-', '.', 'e', 'E'], isBlank c = false :=
      List.all_iff_forall_prop.1 (by decide)
    exact hall c h

/-- There is a digit in every number. -/
theorem exists_isDigit_chars (w : WrittenNumber) : ∃ c ∈ w.chars, c.isDigit := by
  obtain ⟨c, cs, hcs⟩ := List.exists_cons_of_ne_nil w.areDigits.1
  have hc : c ∈ w.whole ++ w.fraction.getD [] := hcs ▸ List.mem_cons_self
  refine ⟨c, ?_, w.areDigits.2 c hc⟩
  rcases List.mem_append.1 hc with hc | hc
  · simp [chars, body, hc]
  · cases hcase : w.fraction with
    | none => simp [hcase] at hc
    | some ds =>
      have hds : c ∈ ds := by simpa [hcase] using hc
      simp [chars, body, fractionChars, hcase, hds]

/-- Behind the digits stands nothing, a point or the letter of an exponent. -/
theorem endsDigits_exponentChars (w : WrittenNumber) : Json.EndsDigits w.exponentChars := by
  unfold exponentChars
  cases w.exponent with
  | none => rfl
  | some e =>
    show e.letter.isDigit = false
    rcases e.isLetter with h | h <;> rw [h] <;> rfl

theorem endsDigits_fractionChars (w : WrittenNumber) :
    Json.EndsDigits (w.fractionChars ++ w.exponentChars) := by
  unfold fractionChars
  cases w.fraction with
  | none => exact w.endsDigits_exponentChars
  | some ds => rfl

/-- A number without its sign begins with a digit or a point. -/
theorem exists_body_eq_cons (w : WrittenNumber) :
    ∃ c rest, w.body = c :: rest ∧ (c.isDigit ∨ c = '.') := by
  cases hwhole : w.whole with
  | cons c cs =>
    exact ⟨c, _, by rw [body, hwhole]; rfl, .inl (w.areDigits.2 c (by simp [hwhole]))⟩
  | nil =>
    -- Without digits in front there are some behind a point.
    cases hfraction : w.fraction with
    | none =>
      have hne := w.areDigits.1
      rw [hwhole, hfraction] at hne
      exact absurd rfl hne
    | some ds => exact ⟨'.', _, by rw [body, hwhole, fractionChars, hfraction]; rfl, .inr rfl⟩

theorem areDigits_body_iff (w : WrittenNumber) : Json.AreDigits w.body ↔ w.IsWhole := by
  constructor
  · intro h
    have hfraction : '.' ∉ w.body := fun hmem => absurd (h.2 '.' hmem) (by decide)
    refine ⟨?_, ?_⟩
    · cases hcase : w.fraction with
      | none => rfl
      | some ds => simp [body, fractionChars, hcase] at hfraction
    · cases hcase : w.exponent with
      | none => rfl
      | some e =>
        have hdigit : e.letter.isDigit :=
          h.2 e.letter (by simp [body, exponentChars, hcase, WrittenExponent.chars])
        rcases e.isLetter with hletter | hletter <;>
        · rw [hletter] at hdigit
          exact absurd hdigit (by decide)
  · intro h
    rw [h.body_eq]
    exact h.areDigits

end WrittenNumber

end RecordFlow.Text
