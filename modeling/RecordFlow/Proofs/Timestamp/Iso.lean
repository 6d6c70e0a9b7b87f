import RecordFlow.Proofs.Timestamp.RoundTrip

/-!
# Written timestamps are read by the lenient reader

`parseIso?` takes what people write, and the written form of a timestamp is among that exactly if
its year has four digits without a sign. The first of the forms that are tried fits it, in a leap
second and with any fraction, and gives the timestamp back unless it is in a leap second inside a
minute (`parseIso?_text`). A year with a sign does not get past the first four characters.
-/

namespace RecordFlow.Timestamp

/-- The year is written with four digits and without a sign. -/
def HasPlainYear (t : Timestamp) : Prop :=
  0 ≤ t.date.year ∧ t.date.year ≤ 9999

instance (t : Timestamp) : Decidable t.HasPlainYear :=
  inferInstanceAs (Decidable (_ ∧ _))

/-! ### The characters of a written timestamp -/

theorem yearText_of_plain {t : Timestamp} (h : t.HasPlainYear) :
    yearText t.date.year = padded 4 t.date.year.toNat := by
  rw [yearText, if_pos (by simpa [HasPlainYear] using h)]

/-- A year that is not plain begins with its sign. -/
theorem exists_yearText_of_not_plain {t : Timestamp} (h : ¬t.HasPlainYear) :
    ∃ sign digits, yearText t.date.year = sign :: digits ∧ sign.isDigit = false := by
  rw [yearText, if_neg (by simpa [HasPlainYear] using h)]
  split
  · exact ⟨'-', _, rfl, rfl⟩
  · exact ⟨'+', _, rfl, rfl⟩

theorem isBlank_of_mem_padded {width n : Nat} {c : Char} (h : c ∈ padded width n) :
    Text.isBlank c = false :=
  isBlank_of_isDigit (isDigit_of_mem_padded h)

theorem isBlank_of_mem_yearText {year : Int} {c : Char} (h : c ∈ yearText year) :
    Text.isBlank c = false := by
  unfold yearText at h
  split at h
  · exact isBlank_of_mem_padded h
  · obtain rfl | h := List.mem_cons.1 h
    · split <;> rfl
    · exact isBlank_of_mem_padded h

/-- A fraction is nothing, or a point and a padded number. -/
theorem fractionText_cases (n : Nat) :
    fractionText n = [] ∨ ∃ width m, fractionText n = '.' :: padded width m := by
  unfold fractionText
  split
  · exact .inl rfl
  split
  · exact .inr ⟨_, _, rfl⟩
  split
  · exact .inr ⟨_, _, rfl⟩
  · exact .inr ⟨_, _, rfl⟩

theorem isBlank_of_mem_fractionText {n : Nat} {c : Char} (h : c ∈ fractionText n) :
    Text.isBlank c = false := by
  obtain hnil | ⟨width, m, hpoint⟩ := fractionText_cases n
  · rw [hnil] at h
    cases h
  · rw [hpoint] at h
    obtain rfl | h := List.mem_cons.1 h
    · rfl
    · exact isBlank_of_mem_padded h

/-- There is no white space in a written timestamp. -/
theorem trim_chars (t : Timestamp) : Text.trim t.chars = t.chars := by
  refine Text.trim_of_not_blank fun c hc => ?_
  simp only [chars_eq, List.mem_append, List.mem_cons] at hc
  obtain h | rfl | h | rfl | h | rfl | h | rfl | h | rfl | h | h := hc
  · exact isBlank_of_mem_yearText h
  · rfl
  · exact isBlank_of_mem_padded h
  · rfl
  · exact isBlank_of_mem_padded h
  · rfl
  · exact isBlank_of_mem_padded h
  · rfl
  · exact isBlank_of_mem_padded h
  · rfl
  · exact isBlank_of_mem_padded h
  · exact isBlank_of_mem_fractionText h

theorem length_le_utf8ByteSize (cs : List Char) : cs.length ≤ (String.ofList cs).utf8ByteSize := by
  induction cs with
  | nil => exact Nat.zero_le _
  | cons c cs ih =>
    have hc := c.utf8Size_pos
    rw [String.ofList_cons, String.utf8ByteSize_append, String.utf8ByteSize_singleton,
      List.length_cons]
    omega

/-- A written timestamp is longer than a date. -/
theorem length_chars {t : Timestamp} (h : t.HasPlainYear) : 10 < t.chars.length := by
  have hyear : (padded 4 t.date.year.toNat).length = 4 :=
    length_padded (by decide) (by have := h.2; omega)
  have hmonth : (padded 2 t.date.month).length = 2 := length_padded (by decide) (month_lt t.date)
  have hday : (padded 2 t.date.day).length = 2 := length_padded (by decide) (day_lt t.date)
  simp only [chars_eq, yearText_of_plain h, List.length_append, List.length_cons, hyear, hmonth,
    hday]
  omega

/-- The first four characters are digits exactly if the year is plain. -/
theorem all_isDigit_take_chars (t : Timestamp) :
    (t.chars.take 4).all Char.isDigit = decide t.HasPlainYear := by
  by_cases h : t.HasPlainYear
  · have hyear : (padded 4 t.date.year.toNat).length = 4 :=
      length_padded (by decide) (by have := h.2; omega)
    rw [chars_eq, yearText_of_plain h, List.take_append_of_le_length (Nat.le_of_eq hyear.symm),
      List.take_of_length_le (Nat.le_of_eq hyear), decide_eq_true h, List.all_eq_true]
    exact fun c => isDigit_of_mem_padded
  · obtain ⟨sign, digits, hyear, hsign⟩ := exists_yearText_of_not_plain h
    rw [chars_eq, hyear, decide_eq_false h]
    simp [hsign]

/-! ### Reading -/

/-- The written form is that of the first pattern with a time. -/
theorem readPattern_datePattern_chars (t : Timestamp) :
    readPattern (datePattern ++ .literal 'T' :: secondPattern) {} t.chars =
      some (writtenFields t) := by
  have hhour : t.time.hour < 100 := Nat.lt_trans t.time.hour_lt (by decide)
  have hminute : t.time.minute < 100 := Nat.lt_trans t.time.minute_lt (by decide)
  simp only [datePattern, secondPattern, minutePattern, List.cons_append, List.nil_append]
  rw [chars_eq, readPattern_cons (read_year _ _ _), readPattern_cons (read_literal _ _ _),
    PatternItem.month, readPattern_cons (read_field _ _ (month_lt t.date) _),
    readPattern_cons (read_literal _ _ _),
    PatternItem.day, readPattern_cons (read_field _ _ (day_lt t.date) _),
    readPattern_cons (read_literal _ _ _),
    PatternItem.hour, readPattern_cons (read_field _ _ hhour _),
    readPattern_cons (read_literal _ _ _),
    PatternItem.minute, readPattern_cons (read_field _ _ hminute _),
    readPattern_cons (read_literal _ _ _),
    PatternItem.second, readPattern_cons (read_field _ _ (writtenSecond_lt t.time) _),
    readPattern_cons (read_fraction _ (Nat.mod_lt _ (by decide)) rfl)]
  rfl

theorem parseIsoChars?_chars (t : Timestamp) :
    parseIsoChars? t.chars = if t.HasPlainYear then some t.reread else none := by
  rw [parseIsoChars?, trim_chars, all_isDigit_take_chars]
  by_cases h : t.HasPlainYear
  · have hsize := Nat.lt_of_lt_of_le (length_chars h) (length_le_utf8ByteSize t.chars)
    have hread : ofPattern? (datePattern ++ .literal 'T' :: secondPattern) t.chars =
        some t.reread := by
      rw [ofPattern?, readPattern_datePattern_chars, Option.bind_some, timestamp?_writtenFields]
    rw [if_pos h, decide_eq_true h, if_neg (by simp; omega), if_neg (by omega), dateTimePatterns,
      List.findSome?_cons, hread]
    rfl
  · rw [if_neg h, decide_eq_false h, Bool.not_false, Bool.or_true, if_pos rfl]

theorem parseIso?_text_eq (t : Timestamp) :
    parseIso? t.text = if t.HasPlainYear then some t.reread else none := by
  rw [parseIso?, text, String.toList_ofList, parseIsoChars?_chars]

/-- The written form of a timestamp is read exactly if its year is one from 0 to 9999, and read as
that timestamp with any nanosecond and in a leap second at the end of a minute. Only a leap second
inside a minute is read as something else, as the next second. -/
theorem parseIso?_text (t : Timestamp) :
    parseIso? t.text = (if 0 ≤ t.date.year ∧ t.date.year ≤ 9999 then some t.reread else none) ∧
    (t.reread = t ↔ (1000000000 ≤ t.time.nanosecond → t.time.second = 59)) := by
  refine ⟨parseIso?_text_eq t, reread_eq_self_iff.trans ?_⟩
  rw [TimeOfDay.InnerLeap, not_and, not_not]

/-- A leap second inside a minute is written like the next second. -/
theorem parseIso?_text_not_of_innerLeap :
    innerLeap.HasPlainYear ∧ innerLeap.text = "2021-03-04T05:06:08.500" ∧
      parseIso? innerLeap.text = some behindInnerLeap ∧ behindInnerLeap ≠ innerLeap := by
  refine ⟨by decide, by decide +kernel, ?_, by decide⟩
  rw [parseIso?_text_eq, if_pos (by decide), reread_innerLeap]

end RecordFlow.Timestamp
