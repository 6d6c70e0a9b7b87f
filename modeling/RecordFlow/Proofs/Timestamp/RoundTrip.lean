import Mathlib.Data.List.TakeWhile
import Mathlib.Tactic.ByContra
import RecordFlow.Timestamp.Text

/-!
# Timestamps are read back

`readStored_chars` says what the written form of a timestamp is read as (`Timestamp.reread`). This
is the timestamp itself, whatever its year and also in a leap second at the end of a minute; a leap
second inside a minute is written like the next second and read as that one. The written form is a
sequence of padded numbers, and the lemmas here say how each kind of pattern item reads the number
that has been written for it.
-/

namespace RecordFlow

/-! ### Leap seconds inside a minute -/

namespace TimeOfDay

variable {t : TimeOfDay}

/-- The time is in a leap second that is not at the end of its minute. -/
def InnerLeap (t : TimeOfDay) : Prop :=
  1000000000 ≤ t.nanosecond ∧ t.second ≠ 59

instance (t : TimeOfDay) : Decidable t.InnerLeap :=
  inferInstanceAs (Decidable (_ ∧ _))

theorem InnerLeap.second_succ_lt (h : t.InnerLeap) : t.second + 1 < 60 := by
  have hsecond := t.second_lt
  have hne := h.2
  omega

/-- The time as its written form is read: a leap second inside a minute is the next second. -/
def reread (t : TimeOfDay) : TimeOfDay :=
  if h : t.InnerLeap then
    { t with
      second := t.second + 1
      nanosecond := t.nanosecond - 1000000000
      second_lt := h.second_succ_lt
      nanosecond_lt := Nat.lt_of_le_of_lt (Nat.sub_le _ _) t.nanosecond_lt }
  else t

theorem reread_of_innerLeap (h : t.InnerLeap) : t.reread.hour = t.hour ∧
    t.reread.minute = t.minute ∧ t.reread.second = t.second + 1 ∧
    t.reread.nanosecond = t.nanosecond - 1000000000 := by
  rw [reread, dif_pos h]
  exact ⟨rfl, rfl, rfl, rfl⟩

/-- Only leap seconds inside a minute are read as something else. -/
theorem reread_eq_self_iff : t.reread = t ↔ ¬t.InnerLeap := by
  constructor
  · intro hread h
    have hsecond := (reread_of_innerLeap h).2.2.1
    rw [hread] at hsecond
    omega
  · exact fun h => dif_neg h

end TimeOfDay

namespace Timestamp

/-- The timestamp as its written form is read. -/
def reread (t : Timestamp) : Timestamp :=
  { t with time := t.time.reread }

theorem reread_eq_self_iff {t : Timestamp} : t.reread = t ↔ ¬t.time.InnerLeap := by
  rw [← TimeOfDay.reread_eq_self_iff]
  exact ⟨fun h => congrArg Timestamp.time h, fun h => congrArg (Timestamp.mk t.date) h⟩

/-- Half a second into the leap second behind the seventh second of a minute. -/
def innerLeap : Timestamp :=
  ⟨(Date.ofFields? 2021 3 4).get (by decide),
    (TimeOfDay.ofFields? 5 6 7 1500000000).get (by decide)⟩

/-- Half a second into the eighth second of that minute. -/
def behindInnerLeap : Timestamp :=
  ⟨innerLeap.date, (TimeOfDay.ofFields? 5 6 8 500000000).get (by decide)⟩

theorem reread_innerLeap : innerLeap.reread = behindInnerLeap := by decide

/-! ### Padded numbers -/

theorem isDigit_of_mem_padded {width n : Nat} {c : Char} (h : c ∈ padded width n) : c.isDigit := by
  simp only [padded, List.mem_append, List.mem_replicate] at h
  rcases h with ⟨-, rfl⟩ | h
  · rfl
  · exact Nat.isDigit_of_mem_toDigits (by decide) (by decide) h

@[simp] theorem ofDigitChars_padded (width n : Nat) :
    Nat.ofDigitChars 10 (padded width n) 0 = n := by
  simp [padded, Nat.ofDigitChars_append]

theorem length_padded {width n : Nat} (hw : 0 < width) (h : n < 10 ^ width) :
    (padded width n).length = width := by
  have hle := (Nat.length_toDigits_le_iff (b := 10) (by decide) hw).2 h
  simp only [padded, List.length_append, List.length_replicate]
  omega

theorem padded_ne_nil (width n : Nat) : padded width n ≠ [] := by
  simp [padded, Nat.toDigits_ne_nil]

/-- A padded number in front of a text begins with a digit. -/
theorem exists_padded_append (width n : Nat) (rest : List Char) :
    ∃ c tail, padded width n ++ rest = c :: tail ∧ c.isDigit := by
  obtain ⟨c, cs, hcs⟩ := List.exists_cons_of_ne_nil (padded_ne_nil width n)
  exact ⟨c, cs ++ rest, by rw [hcs]; rfl, isDigit_of_mem_padded (hcs ▸ List.mem_cons_self)⟩

/-! ### White space -/

theorem isBlank_of_isDigit {c : Char} (h : c.isDigit) : Text.isBlank c = false := by
  obtain ⟨hlow, hhigh⟩ := Char.isDigit_iff_toNat.1 h
  have all : ∀ code < 58, 48 ≤ code → Text.inRanges Text.blankRanges code = false := by decide
  exact all c.toNat (Nat.lt_succ_of_le hhigh) hlow

theorem trimStart_of_not_blank {c : Char} (h : Text.isBlank c = false) (cs : List Char) :
    Text.trimStart (c :: cs) = c :: cs := by
  simp [Text.trimStart, h]

theorem trimStart_padded (width n : Nat) (rest : List Char) :
    Text.trimStart (padded width n ++ rest) = padded width n ++ rest := by
  obtain ⟨c, tail, h, hc⟩ := exists_padded_append width n rest
  rw [h, trimStart_of_not_blank (isBlank_of_isDigit hc)]

/-! ### Numbers -/

/-- Digits are read to their end if there is room for them and either no room is left or they are
followed by another character. -/
theorem takeNumber_append {most : Nat} {ds rest : List Char} (hne : ds ≠ [])
    (hd : ∀ c ∈ ds, c.isDigit) (hm : ds.length ≤ most)
    (hr : (rest.take (most - ds.length)).takeWhile Char.isDigit = []) :
    takeNumber most (ds ++ rest) = some (Nat.ofDigitChars 10 ds 0, rest) := by
  have hdigits : ((ds ++ rest).take most).takeWhile Char.isDigit = ds := by
    rw [List.take_append, List.take_of_length_le hm, List.takeWhile_append_of_pos hd, hr,
      List.append_nil]
  simp [takeNumber, hdigits, hne]

theorem takeNumber_padded {width n : Nat} (hw : 0 < width) (h : n < 10 ^ width) (rest : List Char) :
    takeNumber width (padded width n ++ rest) = some (n, rest) := by
  have hlen := length_padded hw h
  rw [takeNumber_append (padded_ne_nil width n) (fun _ => isDigit_of_mem_padded)
    (Nat.le_of_eq hlen) (by simp [hlen]), ofDigitChars_padded]

/-- A number in front of a character that is no digit is read whatever its width. -/
theorem takeNumber_all (width n : Nat) {c : Char} (hc : c.isDigit = false) (rest : List Char) :
    takeNumber (padded width n ++ c :: rest).length (padded width n ++ c :: rest) =
      some (n, c :: rest) := by
  rw [takeNumber_append (padded_ne_nil width n) (fun _ => isDigit_of_mem_padded)
    (by simp) (by simp [hc]), ofDigitChars_padded]

theorem takeFraction_padded {width n : Nat} (hw : 0 < width) (hw9 : width ≤ 9)
    (h : n < 10 ^ width) : takeFraction (padded width n) = some (n * 10 ^ (9 - width), []) := by
  have hlen := length_padded hw h
  have hdigit : ∀ c ∈ padded width n, c.isDigit := fun _ => isDigit_of_mem_padded
  have hdigits : ((padded width n).take 9).takeWhile Char.isDigit = padded width n := by
    rw [List.take_of_length_le (by omega)]
    exact List.takeWhile_eq_self_iff.2 hdigit
  have hrest : (padded width n).dropWhile Char.isDigit = [] :=
    List.dropWhile_eq_nil_iff.2 hdigit
  simp [takeFraction, hdigits, hrest, padded_ne_nil, hlen]

/-! ### Pattern items -/

theorem read_field (set : Fields → Nat → Fields) (f : Fields) {n : Nat} (h : n < 100)
    (rest : List Char) :
    (PatternItem.field set).read f (padded 2 n ++ rest) = some (set f n, rest) := by
  rw [PatternItem.read, trimStart_padded, takeNumber_padded (by decide) h]
  rfl

theorem read_literal (c : Char) (f : Fields) (rest : List Char) :
    (PatternItem.literal c).read f (c :: rest) = some (f, rest) := by
  simp [PatternItem.read, takeChar]

theorem read_blanks {c : Char} (h : Text.isBlank c = false) (f : Fields) (rest : List Char) :
    PatternItem.blanks.read f (c :: rest) = some (f, c :: rest) := by
  rw [PatternItem.read, trimStart_of_not_blank h]

/-- A year is read with or without its sign. -/
theorem read_year (f : Fields) (year : Int) (rest : List Char) :
    PatternItem.year.read f (yearText year ++ '-' :: rest) =
      some ({ f with year := year }, '-' :: rest) := by
  unfold yearText
  split
  · next h =>
    have hy : 0 ≤ year ∧ year ≤ 9999 := by simpa using h
    obtain ⟨c, tail, hc, hd⟩ := exists_padded_append 4 year.toNat ('-' :: rest)
    have hread : takeNumber 4 (padded 4 year.toNat ++ '-' :: rest) =
        some (year.toNat, '-' :: rest) :=
      takeNumber_padded (by decide) (by omega) _
    have hm : c ≠ '-' := by rintro rfl; cases hd
    have hp : c ≠ '+' := by rintro rfl; cases hd
    have hcast : (year.toNat : Int) = year := by omega
    rw [PatternItem.read, trimStart_padded, hc]
    rw [hc] at hread
    simp [hm, hp, hread, hcast]
  · split
    · next h =>
      have hcast : -(year.natAbs : Int) = year := by omega
      rw [PatternItem.read, List.cons_append, trimStart_of_not_blank (by decide)]
      simp only [takeNumber_all 4 year.natAbs (c := '-') rfl rest, Option.map_some, hcast]
    · next h =>
      have hcast : (year.natAbs : Int) = year := by omega
      rw [PatternItem.read, List.cons_append, trimStart_of_not_blank (by decide)]
      simp only [takeNumber_all 4 year.natAbs (c := '-') rfl rest, Option.map_some, hcast]

/-- The fraction is written in as few groups of digits as it needs, and read from any of them. -/
theorem read_fraction (f : Fields) {n : Nat} (h : n < 1000000000) (hf : f.nanosecond = 0) :
    PatternItem.fraction.read f (fractionText n) = some ({ f with nanosecond := n }, []) := by
  unfold fractionText
  split
  · next h0 =>
    subst h0
    rw [← hf]
    rfl
  split
  · next h6 =>
    have hn : n / 1000000 * 10 ^ (9 - 3) = n := by omega
    rw [PatternItem.read, takeFraction_padded (by decide) (by decide) (by omega), hn]
    rfl
  split
  · next h3 =>
    have hn : n / 1000 * 10 ^ (9 - 6) = n := by omega
    rw [PatternItem.read, takeFraction_padded (by decide) (by decide) (by omega), hn]
    rfl
  · rw [PatternItem.read, takeFraction_padded (by decide) (by decide) h, Nat.sub_self,
      Nat.pow_zero, Nat.mul_one]
    rfl

/-! ### Whole timestamps -/

theorem readPattern_cons {item : PatternItem} {f f' : Fields} {cs rest : List Char}
    (h : item.read f cs = some (f', rest)) (items : List PatternItem) :
    readPattern (item :: items) f cs = readPattern items f' rest := by
  simp [readPattern, h]

/-- The second that is written: that of the clock, or the one behind it in a leap second. -/
def writtenSecond (t : TimeOfDay) : Nat :=
  if 1000000000 ≤ t.nanosecond then t.second + 1 else t.second

theorem writtenSecond_lt (t : TimeOfDay) : writtenSecond t < 100 := by
  have h := t.second_lt
  unfold writtenSecond
  split <;> omega

/-- The fields that the written form of a timestamp gives. -/
def writtenFields (t : Timestamp) : Fields where
  year := t.date.year
  month := t.date.month
  day := t.date.day
  hour := t.time.hour
  minute := t.time.minute
  second := writtenSecond t.time
  nanosecond := t.time.nanosecond % 1000000000

theorem chars_eq (t : Timestamp) :
    t.chars = yearText t.date.year ++ '-' :: (padded 2 t.date.month ++ '-' ::
      (padded 2 t.date.day ++ 'T' :: (padded 2 t.time.hour ++ ':' ::
        (padded 2 t.time.minute ++ ':' :: (padded 2 (writtenSecond t.time) ++
          fractionText (t.time.nanosecond % 1000000000)))))) := by
  simp [chars, writtenSecond]

theorem month_lt (d : Date) : d.month < 100 := by
  have h := d.month_bounds
  omega

theorem day_lt (d : Date) : d.day < 100 := by
  have h := d.day_bounds.2
  have h31 : daysInMonth d.year d.month ≤ 31 := by
    unfold daysInMonth
    split
    · split <;> decide
    all_goals decide
  omega

theorem readPattern_chars (t : Timestamp) :
    readPattern storedPattern {} t.chars = some (writtenFields t) := by
  have hhour : t.time.hour < 100 := Nat.lt_trans t.time.hour_lt (by decide)
  have hminute : t.time.minute < 100 := Nat.lt_trans t.time.minute_lt (by decide)
  rw [chars_eq, storedPattern, readPattern_cons (read_year _ _ _),
    readPattern_cons (read_blanks (by decide) _ _), readPattern_cons (read_literal _ _ _),
    PatternItem.month, readPattern_cons (read_field _ _ (month_lt t.date) _),
    readPattern_cons (read_blanks (by decide) _ _), readPattern_cons (read_literal _ _ _),
    PatternItem.day, readPattern_cons (read_field _ _ (day_lt t.date) _),
    readPattern_cons (read_blanks (by decide) _ _), readPattern_cons (read_literal _ _ _),
    PatternItem.hour, readPattern_cons (read_field _ _ hhour _),
    readPattern_cons (read_blanks (by decide) _ _), readPattern_cons (read_literal _ _ _),
    PatternItem.minute, readPattern_cons (read_field _ _ hminute _),
    readPattern_cons (read_blanks (by decide) _ _), readPattern_cons (read_literal _ _ _),
    PatternItem.second, readPattern_cons (read_field _ _ (writtenSecond_lt t.time) _),
    readPattern_cons (read_fraction _ (Nat.mod_lt _ (by decide)) rfl)]
  rfl

theorem ofFields?_date (d : Date) : Date.ofFields? d.year d.month d.day = some d :=
  dif_pos ⟨d.year_inRange, d.month_bounds, d.day_bounds⟩

theorem ofFields?_time (t : TimeOfDay) :
    TimeOfDay.ofFields? t.hour t.minute t.second t.nanosecond = some t :=
  dif_pos ⟨t.hour_lt, t.minute_lt, t.second_lt, t.nanosecond_lt⟩

/-- The written second and fraction give the time back, unless it is in a leap second inside a
minute: only second sixty is read as a leap second. -/
theorem ofWritten?_writtenSecond (t : TimeOfDay) :
    TimeOfDay.ofWritten? t.hour t.minute (writtenSecond t) (t.nanosecond % 1000000000) =
      some t.reread := by
  have hsecond := t.second_lt
  have hnano := t.nanosecond_lt
  have htime := ofFields?_time t.reread
  rw [TimeOfDay.ofWritten?, if_neg (by omega)]
  by_cases hinner : t.InnerLeap
  · obtain ⟨hhour, hminute, hnext, hrest⟩ := TimeOfDay.reread_of_innerLeap hinner
    have hlt := hinner.second_succ_lt
    have hmod : t.nanosecond % 1000000000 = t.nanosecond - 1000000000 := by
      have hleap := hinner.1
      omega
    rw [hhour, hminute, hnext, hrest] at htime
    rw [writtenSecond, if_pos hinner.1, if_neg (by omega), hmod, htime]
  rw [TimeOfDay.reread_eq_self_iff.2 hinner] at htime ⊢
  by_cases hleap : 1000000000 ≤ t.nanosecond
  · have h59 : t.second = 59 := by
      by_contra h
      exact hinner ⟨hleap, h⟩
    have hmod : 1000000000 + t.nanosecond % 1000000000 = t.nanosecond := by omega
    rw [h59] at htime
    rw [writtenSecond, if_pos hleap, h59, if_pos rfl, hmod, htime]
  · have hmod : t.nanosecond % 1000000000 = t.nanosecond := by omega
    rw [writtenSecond, if_neg hleap, if_neg (by omega), hmod, htime]

theorem timestamp?_writtenFields (t : Timestamp) :
    (writtenFields t).timestamp? = some t.reread := by
  simp [Fields.timestamp?, Timestamp.ofFields?, writtenFields, ofFields?_date,
    ofWritten?_writtenSecond, reread]

/-- What the written form of a timestamp is read as. -/
theorem readStored_chars (t : Timestamp) : readStored t.chars = some t.reread := by
  rw [readStored, ofPattern?, readPattern_chars, Option.bind_some, timestamp?_writtenFields]

end Timestamp

end RecordFlow
