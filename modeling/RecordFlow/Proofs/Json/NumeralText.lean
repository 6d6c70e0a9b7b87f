import RecordFlow.Json.Reader

/-!
# Numerals and their text

`Numeral.chars` is a numeral as it is written. The text is read as that numeral, to its end and no
further: a text behind it that does not go on with it (`Stops`) is left as it is
(`Numeral.readNumeral_append`). As long as the digits fit 64 bits, all of them count
(`Numeral.significand_eq`).
-/

namespace RecordFlow.Json

/-- The character can go on with a numeral. -/
def continuesNumeral (c : Char) : Bool :=
  c.isDigit || c == '.' || c == 'e' || c == 'E'

/-- The text does not begin with a character that goes on with a numeral. -/
def Stops (cs : List Char) : Prop :=
  cs.head?.any continuesNumeral = false

theorem stops_nil : Stops [] := rfl

theorem stops_cons {c : Char} (h : continuesNumeral c = false) (cs : List Char) :
    Stops (c :: cs) := by
  simpa [Stops] using h

theorem Stops.head_ne {c : Char} {cs : List Char} (h : Stops (c :: cs)) :
    c.isDigit = false ∧ c ≠ '.' ∧ c ≠ 'e' ∧ c ≠ 'E' := by
  simpa [Stops, continuesNumeral, and_assoc] using h

/-! ### Digits -/

/-- Decimal digits, at least one. -/
def AreDigits (ds : List Char) : Prop :=
  ds ≠ [] ∧ ∀ c ∈ ds, c.isDigit

theorem areDigits_toDigits (n : Nat) : AreDigits (Nat.toDigits 10 n) :=
  ⟨Nat.toDigits_ne_nil, fun _ => Nat.isDigit_of_mem_toDigits (by decide) (by decide)⟩

theorem areDigits_zero : AreDigits ['0'] :=
  areDigits_toDigits 0

/-- The text does not begin with a digit. -/
def EndsDigits (rest : List Char) : Prop :=
  rest.head?.any Char.isDigit = false

theorem Stops.endsDigits {rest : List Char} (h : Stops rest) : EndsDigits rest := by
  cases rest with
  | nil => rfl
  | cons c cs => exact h.head_ne.1

/-- Digits in front of what does not begin with one. -/
theorem takeWhile_isDigit_append {ds rest : List Char} (h : ∀ c ∈ ds, c.isDigit)
    (hr : EndsDigits rest) :
    (ds ++ rest).takeWhile Char.isDigit = ds ∧ (ds ++ rest).dropWhile Char.isDigit = rest := by
  rw [List.takeWhile_append_of_pos h, List.dropWhile_append_of_pos h]
  cases rest with
  | nil => simp
  | cons c rest =>
    have hc : c.isDigit = false := hr
    simp [hc]

/-- What begins with digits is read as those digits. -/
theorem readDigits_append {ds rest : List Char} (h : AreDigits ds) (hr : EndsDigits rest) :
    readDigits (ds ++ rest) = some (ds, rest) := by
  obtain ⟨htake, hdrop⟩ := takeWhile_isDigit_append h.2 hr
  simp only [readDigits, htake, hdrop]
  rw [if_neg (by simpa using h.1)]

/-- Only the number zero is written with a zero in front. -/
theorem head?_toDigits_ne {n : Nat} (h : 0 < n) : (Nat.toDigits 10 n).head? ≠ some '0' := by
  induction n using Nat.strongRecOn with
  | ind n ih =>
    by_cases hn : n < 10
    · have all : ∀ n < 10, 0 < n → n.digitChar ≠ '0' := by decide
      rw [Nat.toDigits_of_lt_base hn]
      simpa using all n hn h
    · have hdiv := ih (n / 10) (by omega) (by omega)
      obtain ⟨c, cs, hcs⟩ :=
        List.exists_cons_of_ne_nil (Nat.toDigits_ne_nil (n := n / 10) (b := 10))
      rw [Nat.toDigits_of_base_le (by decide) (by omega), hcs]
      rw [hcs] at hdiv
      simpa using hdiv

/-- Further digits make no number smaller. -/
theorem le_ofDigitChars (ds : List Char) (n : Nat) : n ≤ Nat.ofDigitChars 10 ds n := by
  rw [Nat.ofDigitChars_eq_ofDigitChars_zero]
  exact Nat.le_trans (Nat.le_mul_of_pos_left _ (Nat.pow_pos (by decide))) (Nat.le_add_right _ _)

theorem absorb_of_lt {significand : Nat} {ds : List Char}
    (h : Nat.ofDigitChars 10 ds significand < 2 ^ 64) :
    absorb significand ds = (Nat.ofDigitChars 10 ds significand, []) := by
  induction ds generalizing significand with
  | nil => rfl
  | cons c ds ih =>
    rw [Nat.ofDigitChars_cons] at h ⊢
    have hle : 10 * significand + (c.toNat - '0'.toNat) < 2 ^ 64 :=
      Nat.lt_of_le_of_lt (le_ofDigitChars ds _) h
    rw [absorb, Nat.mul_comm significand 10, if_pos hle]
    exact ih h

/-! ### Texts of numerals -/

namespace Numeral

/-- The point and the digits behind it. -/
def fractionChars (n : Numeral) : List Char :=
  n.fraction.elim [] ('.' :: ·)

/-- The letter, the sign and the digits of the exponent. -/
def exponentChars (n : Numeral) : List Char :=
  n.exponent.elim [] fun (minus, ds) => 'e' :: (if minus then '-' else '+') :: ds

/-- A numeral as it is written, an exponent always with its sign. -/
def chars (n : Numeral) : List Char :=
  (if n.negative then ['-'] else []) ++ (n.whole ++ (n.fractionChars ++ n.exponentChars))

/-- The parts of the numeral are digits, and the whole part begins with zero only if it is zero. -/
structure IsWritten (n : Numeral) : Prop where
  whole : n.whole = ['0'] ∨ AreDigits n.whole ∧ n.whole.head? ≠ some '0'
  fraction : ∀ ds ∈ n.fraction, AreDigits ds
  exponent : ∀ e ∈ n.exponent, AreDigits e.2

variable {n : Numeral}

theorem IsWritten.areDigits (h : n.IsWritten) : AreDigits n.whole := by
  rcases h.whole with hzero | hdigits
  · rw [hzero]
    exact areDigits_zero
  · exact hdigits.1

/-- A numeral begins with a minus or a digit. -/
theorem IsWritten.exists_chars_eq_cons (h : n.IsWritten) :
    ∃ c cs, n.chars = c :: cs ∧ (c = '-' ∨ c.isDigit) := by
  obtain ⟨c, cs, hwhole⟩ := List.exists_cons_of_ne_nil h.areDigits.1
  unfold chars
  split
  · exact ⟨'-', _, rfl, .inl rfl⟩
  · have hc := h.areDigits.2 c (by rw [hwhole]; exact List.mem_cons_self)
    rw [hwhole]
    exact ⟨c, _, rfl, .inr hc⟩

theorem readWhole_append (h : n.IsWritten) {rest : List Char} (hr : EndsDigits rest) :
    readWhole (n.whole ++ rest) = some (n.whole, rest) := by
  rcases h.whole with hzero | ⟨hdigits, hhead⟩
  · rw [hzero]
    rfl
  · obtain ⟨c, cs, hwhole⟩ := List.exists_cons_of_ne_nil hdigits.1
    have hread := readDigits_append hdigits hr
    rw [hwhole] at hhead hread ⊢
    have hc : c ≠ '0' := by simpa using hhead
    simpa [readWhole, hc] using hread

theorem readFraction_append (h : n.IsWritten) {rest : List Char} (hr : EndsDigits rest)
    (hpoint : rest.head? ≠ some '.') :
    readFraction (n.fractionChars ++ rest) = some (n.fraction, rest) := by
  unfold fractionChars
  cases hf : n.fraction with
  | none =>
    cases rest with
    | nil => rfl
    | cons c rest =>
      have hc : c ≠ '.' := by simpa using hpoint
      simp [readFraction, hc]
  | some ds =>
    have hread := readDigits_append (h.fraction ds hf) hr
    simp [readFraction, hread]

theorem readExponent_append (h : n.IsWritten) {rest : List Char} (hr : Stops rest) :
    readExponent (n.exponentChars ++ rest) = some (n.exponent, rest) := by
  unfold exponentChars
  cases he : n.exponent with
  | none =>
    cases rest with
    | nil => rfl
    | cons c rest => simp [readExponent, hr.head_ne]
  | some e =>
    obtain ⟨minus, ds⟩ := e
    have hread := readDigits_append (h.exponent _ he) hr.endsDigits
    cases minus <;> simp [readExponent, exponentSign, hread]

theorem endsDigits_exponentChars (n : Numeral) {rest : List Char} (hr : Stops rest) :
    EndsDigits (n.exponentChars ++ rest) ∧ (n.exponentChars ++ rest).head? ≠ some '.' := by
  unfold exponentChars
  cases n.exponent with
  | none =>
    refine ⟨hr.endsDigits, ?_⟩
    cases rest with
    | nil => simp
    | cons c rest => simp [hr.head_ne.2.1]
  | some e => exact ⟨rfl, by simp⟩

theorem endsDigits_fractionChars (n : Numeral) {rest : List Char} (hr : EndsDigits rest) :
    EndsDigits (n.fractionChars ++ rest) := by
  unfold fractionChars
  cases n.fraction with
  | none => exact hr
  | some ds => rfl

theorem numeralSign_append (h : n.IsWritten) (rest : List Char) :
    numeralSign ((if n.negative then ['-'] else []) ++ (n.whole ++ rest)) =
      (n.negative, n.whole ++ rest) := by
  obtain ⟨c, cs, hwhole⟩ := List.exists_cons_of_ne_nil h.areDigits.1
  have hc : c ≠ '-' := by
    rintro rfl
    exact absurd (h.areDigits.2 '-' (by rw [hwhole]; exact List.mem_cons_self)) (by decide)
  rw [hwhole]
  cases n.negative <;> simp [numeralSign, hc]

/-- A numeral is read from its text, in front of any text that does not go on with it. -/
theorem readNumeral_append (h : n.IsWritten) {rest : List Char} (hr : Stops rest) :
    readNumeral (n.chars ++ rest) = some (n, rest) := by
  obtain ⟨hexponent, hpoint⟩ := endsDigits_exponentChars n hr
  have hfraction := endsDigits_fractionChars n hexponent
  have hsplit : n.chars ++ rest = (if n.negative then ['-'] else []) ++
      (n.whole ++ (n.fractionChars ++ (n.exponentChars ++ rest))) := by
    simp [chars]
  rw [hsplit, readNumeral, numeralSign_append h]
  simp [readWhole_append h hfraction, readFraction_append h hexponent hpoint,
    readExponent_append h hr]

/-! ### Digits that count -/

/-- The digits of the whole part and of the fraction. -/
def digits (n : Numeral) : List Char :=
  n.whole ++ n.fraction.getD []

/-- Digits that fit 64 bits all count, those behind the point by their number. -/
theorem significand_eq (h : Nat.ofDigitChars 10 n.digits 0 < 2 ^ 64) :
    n.significand =
      (Nat.ofDigitChars 10 n.digits 0, n.writtenExponent - (n.fraction.getD []).length) := by
  rw [digits, Nat.ofDigitChars_append] at h
  have hwhole : Nat.ofDigitChars 10 n.whole 0 < 2 ^ 64 := by
    refine Nat.lt_of_le_of_lt ?_ h
    exact le_ofDigitChars _ _
  rw [significand, absorb_of_lt hwhole, digits, Nat.ofDigitChars_append]
  simp only [absorb_of_lt h, List.length_nil]
  refine Prod.ext rfl ?_
  show (0 : Int) - ((n.fraction.getD []).length - 0 : Nat) + n.writtenExponent = _
  omega

end Numeral

end RecordFlow.Json
