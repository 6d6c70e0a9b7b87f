import Mathlib.Tactic.SplitIfs
import RecordFlow.Json.Basic
import RecordFlow.Proofs.Binary64.Shortest
import RecordFlow.Proofs.Json.NumeralText

/-!
# The numerals of floating-point numbers

Every finite number is written as a numeral (`text_eq_chars`), whose digits are those of its
shortest decimal and all count when it is read (`significand_numeral`).
-/

namespace RecordFlow.Json

open Binary64

/-! ### The two layouts -/

/-- The numeral of digits with a point among them, in front of them or behind them. -/
def positionalNumeral (negative : Bool) (ds : List Char) (exponent : Int) : Numeral :=
  if 0 ≤ exponent then
    ⟨negative, ds ++ List.replicate exponent.toNat '0', some ['0'], none⟩
  else if (-exponent).toNat < ds.length then
    ⟨negative, ds.take (ds.length - (-exponent).toNat),
      some (ds.drop (ds.length - (-exponent).toNat)), none⟩
  else
    ⟨negative, ['0'], some (List.replicate ((-exponent).toNat - ds.length) '0' ++ ds), none⟩

/-- The numeral of digits with an exponent. -/
def scientificNumeral (negative : Bool) (ds : List Char) (leading : Int) : Numeral :=
  ⟨negative, ds.take 1, if (ds.drop 1).isEmpty then none else some (ds.drop 1),
    some (leading < 0, Nat.toDigits 10 leading.natAbs)⟩

variable (negative : Bool) {ds : List Char}

theorem chars_positionalNumeral (ds : List Char) (exponent : Int) :
    (positionalNumeral negative ds exponent).chars =
      (if negative then ['-'] else []) ++ positionalText true ds exponent := by
  unfold positionalNumeral positionalText
  split_ifs <;> simp_all [Numeral.chars, Numeral.fractionChars, Numeral.exponentChars]

theorem chars_scientificNumeral (ds : List Char) (leading : Int) :
    (scientificNumeral negative ds leading).chars =
      (if negative then ['-'] else []) ++ scientificText ['+'] ds leading := by
  unfold scientificNumeral scientificText Numeral.chars Numeral.fractionChars Numeral.exponentChars
  split_ifs <;> simp_all

theorem isDigit_of_mem_replicate {n : Nat} : ∀ c ∈ List.replicate n '0', c.isDigit :=
  fun c hc => by
    rw [List.eq_of_mem_replicate hc]
    rfl

theorem isWritten_positionalNumeral (hds : AreDigits ds) (hhead : ds.head? ≠ some '0')
    (exponent : Int) : (positionalNumeral negative ds exponent).IsWritten := by
  have happend {as bs : List Char} (has : ∀ c ∈ as, c.isDigit) (hbs : ∀ c ∈ bs, c.isDigit) :
      ∀ c ∈ as ++ bs, c.isDigit := fun c hc => (List.mem_append.1 hc).elim (has c) (hbs c)
  unfold positionalNumeral
  split_ifs with hwhole hpoint
  · refine ⟨.inr ⟨⟨by simp [hds.1], happend hds.2 isDigit_of_mem_replicate⟩, ?_⟩, ?_, by simp⟩
    · obtain ⟨d, tail, rfl⟩ := List.exists_cons_of_ne_nil hds.1
      exact hhead
    · rintro _ ⟨⟩
      exact areDigits_zero
  · have htake : ds.take (ds.length - (-exponent).toNat) ≠ [] := by
      rw [Ne, List.take_eq_nil_iff, not_or]
      exact ⟨by omega, hds.1⟩
    refine ⟨.inr ⟨⟨htake, fun c hc => hds.2 c (List.mem_of_mem_take hc)⟩, ?_⟩, ?_, by simp⟩
    · rwa [List.head?_take, if_neg (by omega)]
    · rintro _ ⟨⟩
      refine ⟨?_, fun c hc => hds.2 c (List.mem_of_mem_drop hc)⟩
      rw [Ne, List.drop_eq_nil_iff]
      omega
  · refine ⟨.inl rfl, ?_, by simp⟩
    rintro _ ⟨⟩
    exact ⟨by simp [hds.1], happend isDigit_of_mem_replicate hds.2⟩

theorem isWritten_scientificNumeral (hds : AreDigits ds) (hhead : ds.head? ≠ some '0')
    (leading : Int) : (scientificNumeral negative ds leading).IsWritten := by
  unfold scientificNumeral
  refine ⟨.inr ⟨⟨?_, fun c hc => hds.2 c (List.mem_of_mem_take hc)⟩, ?_⟩, ?_, ?_⟩
  · rw [Ne, List.take_eq_nil_iff, not_or]
    exact ⟨by decide, hds.1⟩
  · rwa [List.head?_take, if_neg (by decide)]
  · dsimp only
    split
    · simp
    · next hempty =>
      rintro _ ⟨⟩
      exact ⟨fun hnil => hempty (List.isEmpty_iff.2 hnil),
        fun c hc => hds.2 c (List.mem_of_mem_drop hc)⟩
  · rintro _ ⟨⟩
    exact areDigits_toDigits _

/-! ### The digits that are read -/

variable {exponent : Int}

/-- Whole numbers have one more digit, the one behind the point. -/
theorem significand_positionalNumeral_of_nonneg (he : 0 ≤ exponent)
    (h : Nat.ofDigitChars 10 ds 0 * 10 ^ (exponent.toNat + 1) < 2 ^ 64) :
    (positionalNumeral negative ds exponent).significand =
      (Nat.ofDigitChars 10 ds 0 * 10 ^ (exponent.toNat + 1), -1) := by
  have hdigits : Nat.ofDigitChars 10 (positionalNumeral negative ds exponent).digits 0 =
      Nat.ofDigitChars 10 ds 0 * 10 ^ (exponent.toNat + 1) := by
    rw [positionalNumeral, if_pos he, Numeral.digits, Option.getD_some, Nat.ofDigitChars_append,
      Nat.ofDigitChars_append, Nat.ofDigitChars_replicate_zero,
      show ['0'] = List.replicate 1 '0' from rfl, Nat.ofDigitChars_replicate_zero, ← Nat.mul_assoc,
      ← Nat.pow_add, Nat.add_comm 1, Nat.mul_comm]
  rw [Numeral.significand_eq (by rwa [hdigits]), hdigits, positionalNumeral, if_pos he]
  rfl

theorem significand_positionalNumeral_of_neg (he : exponent < 0)
    (h : Nat.ofDigitChars 10 ds 0 < 2 ^ 64) :
    (positionalNumeral negative ds exponent).significand =
      (Nat.ofDigitChars 10 ds 0, exponent) := by
  have hparts : Nat.ofDigitChars 10 (positionalNumeral negative ds exponent).digits 0 =
        Nat.ofDigitChars 10 ds 0 ∧
      ((positionalNumeral negative ds exponent).fraction.getD []).length = (-exponent).toNat ∧
      (positionalNumeral negative ds exponent).writtenExponent = 0 := by
    unfold positionalNumeral
    rw [if_neg (by omega)]
    split_ifs with hpoint
    · refine ⟨?_, ?_, rfl⟩
      · rw [Numeral.digits, Option.getD_some, List.take_append_drop]
      · rw [Option.getD_some, List.length_drop]
        omega
    · refine ⟨?_, ?_, rfl⟩
      · rw [Numeral.digits, Option.getD_some, Nat.ofDigitChars_append, Nat.ofDigitChars_append,
          Nat.ofDigitChars_replicate_zero]
        rfl
      · rw [Option.getD_some, List.length_append, List.length_replicate]
        omega
  rw [Numeral.significand_eq (by rwa [hparts.1]), hparts.1, hparts.2.1, hparts.2.2]
  refine Prod.ext rfl ?_
  show (0 : Int) - ((-exponent).toNat : Int) = exponent
  omega

theorem significand_scientificNumeral (hne : ds ≠ []) (leading : Int)
    (h : Nat.ofDigitChars 10 ds 0 < 2 ^ 64) :
    (scientificNumeral negative ds leading).significand =
      (Nat.ofDigitChars 10 ds 0, leading - (ds.length - 1)) := by
  have hfraction : (scientificNumeral negative ds leading).fraction.getD [] = ds.drop 1 := by
    unfold scientificNumeral
    dsimp only
    split
    · next hempty => rw [List.isEmpty_iff.1 hempty, Option.getD_none]
    · rfl
  have hdigits : (scientificNumeral negative ds leading).digits = ds := by
    rw [Numeral.digits, hfraction]
    exact List.take_append_drop 1 ds
  have hwritten : (scientificNumeral negative ds leading).writtenExponent = leading := by
    simp only [Numeral.writtenExponent, scientificNumeral, Nat.ofDigitChars_ten_toDigits,
      decide_eq_true_eq]
    split <;> omega
  have hlength := List.length_pos_iff.2 hne
  rw [Numeral.significand_eq (by rwa [hdigits]), hdigits, hfraction, hwritten, List.length_drop]
  refine Prod.ext rfl ?_
  show leading - ((ds.length - 1 : Nat) : Int) = leading - ((ds.length : Int) - 1)
  omega

end RecordFlow.Json

/-! ### Numbers -/

namespace RecordFlow.Binary64

open Json

/-- The numeral that a finite number is written as. -/
def numeral (x : Binary64) : Numeral :=
  if x.isZero then positionalNumeral x.negative ['0'] 0
  else
    let d := shortest .even x.magnitude
    let ds := Nat.toDigits 10 d.digits
    let leading := d.exponent + ds.length - 1
    if -5 ≤ leading && leading < 16 then positionalNumeral x.negative ds d.exponent
    else scientificNumeral x.negative ds leading

/-- The digits and the exponent that the numeral of a finite number stands for: those of its
shortest decimal, but whole numbers that are written in full have one more digit. -/
def printed (x : Binary64) : Nat × Int :=
  if x.isZero then (0, -1)
  else
    let d := shortest .even x.magnitude
    if 0 ≤ d.exponent && d.exponent + (Nat.toDigits 10 d.digits).length ≤ 16 then
      (d.digits * 10 ^ (d.exponent.toNat + 1), -1)
    else (d.digits, d.exponent)

variable {x : Binary64}

theorem text_eq_chars (hx : x.isFinite) : x.text numberLayout = x.numeral.chars := by
  unfold Binary64.text numeral
  rw [isNaN_of_isFinite hx, isInfinite_of_isFinite hx, if_neg Bool.false_ne_true]
  dsimp only
  rw [if_neg Bool.false_ne_true]
  split
  · rw [chars_positionalNumeral]
    rfl
  · rw [apply_ite Numeral.chars, chars_positionalNumeral, chars_scientificNumeral, ← apply_ite]
    rfl

theorem isWritten_numeral (hx : x.isFinite) : x.numeral.IsWritten := by
  unfold numeral
  split
  · exact ⟨.inl rfl, by rintro _ ⟨⟩; exact areDigits_zero, by rintro _ ⟨⟩⟩
  · next hzero =>
    have hdigits := digits_shortest_pos .even (magnitude_pos hzero) (of_decide_eq_true hx)
    dsimp only
    split
    · exact isWritten_positionalNumeral _ (areDigits_toDigits _) (head?_toDigits_ne hdigits) _
    · exact isWritten_scientificNumeral _ (areDigits_toDigits _) (head?_toDigits_ne hdigits) _

theorem negative_numeral (x : Binary64) : x.numeral.negative = x.negative := by
  unfold numeral positionalNumeral scientificNumeral
  dsimp only
  split_ifs <;> rfl

/-- A floating-point number is never written as an integer. -/
theorem not_whole_numeral (x : Binary64) :
    (x.numeral.fraction.isNone && x.numeral.exponent.isNone) = false := by
  unfold numeral positionalNumeral scientificNumeral
  dsimp only
  split_ifs <;> simp

/-- All digits count when the numeral is read. -/
theorem significand_numeral (hx : x.isFinite) : x.numeral.significand = x.printed := by
  unfold numeral printed
  split
  · exact significand_positionalNumeral_of_nonneg _ (Int.le_refl 0) (by decide)
  have hlt : (shortest .even x.magnitude).digits < 2 ^ 64 :=
    Nat.lt_trans (digits_shortest_lt .even (of_decide_eq_true hx)) (by decide)
  dsimp only
  generalize shortest .even x.magnitude = d at hlt
  have hlength : 0 < (Nat.toDigits 10 d.digits).length :=
    List.length_pos_iff.2 Nat.toDigits_ne_nil
  have hvalue : Nat.ofDigitChars 10 (Nat.toDigits 10 d.digits) 0 = d.digits :=
    Nat.ofDigitChars_ten_toDigits
  by_cases hfull : 0 ≤ d.exponent ∧ d.exponent + (Nat.toDigits 10 d.digits).length ≤ 16
  · have hfits : d.digits * 10 ^ (d.exponent.toNat + 1) < 2 ^ 64 := by
      have hdigits := (Nat.length_toDigits_le_iff (b := 10) (by decide) hlength).1 (Nat.le_refl _)
      calc d.digits * 10 ^ (d.exponent.toNat + 1)
          < 10 ^ (Nat.toDigits 10 d.digits).length * 10 ^ (d.exponent.toNat + 1) :=
            Nat.mul_lt_mul_of_pos_right hdigits (Nat.pow_pos (by decide))
        _ = 10 ^ ((Nat.toDigits 10 d.digits).length + (d.exponent.toNat + 1)) :=
            (Nat.pow_add 10 _ _).symm
        _ ≤ 10 ^ 17 := Nat.pow_le_pow_right (by decide) (by omega)
        _ < 2 ^ 64 := by decide
    rw [if_pos (by simp only [Bool.and_eq_true, decide_eq_true_eq]; omega),
      if_pos (by simp only [Bool.and_eq_true, decide_eq_true_eq]; omega),
      significand_positionalNumeral_of_nonneg _ hfull.1 (by rwa [hvalue]), hvalue]
  · rw [if_neg (c := (decide (0 ≤ d.exponent) && _) = true)
      (by simp only [Bool.and_eq_true, decide_eq_true_eq]; omega)]
    split
    · next hpositional =>
      simp only [Bool.and_eq_true, decide_eq_true_eq] at hpositional
      rw [significand_positionalNumeral_of_neg _ (by omega) (by rwa [hvalue]), hvalue]
    · rw [significand_scientificNumeral _ Nat.toDigits_ne_nil _ (by rwa [hvalue]), hvalue]
      refine Prod.ext rfl ?_
      dsimp only
      omega

end RecordFlow.Binary64
