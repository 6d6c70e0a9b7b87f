import Mathlib.Data.List.Induction
import RecordFlow.Proofs.Timestamp.Iso
import RecordFlow.Query.Function

/-!
# Timestamps that were read from a text

A text has to begin with four digits, so the year that it gives is plain (`HasPlainYear`), and only
second sixty is read as a leap second. An offset is taken off after that, and can lead to the day
before the first of these years or to the day behind the last one; everything else that was read
from a text is read again from what it is shown as (`parseIso?_spec`).
-/

namespace RecordFlow

/-! ### Neighbouring days -/

namespace Date

variable {d e : Date} {year : Int} {month day : Nat}

theorem fields_of_ofFields? (h : ofFields? year month day = some d) :
    d.year = year ∧ d.month = month ∧ d.day = day := by
  unfold ofFields? at h
  split at h
  · cases h
    exact ⟨rfl, rfl, rfl⟩
  · cases h

theorem previous?_cases (h : d.previous? = some e) :
    e.year = d.year ∨ (e.year = d.year - 1 ∧ e.month = 12 ∧ e.day = 31) := by
  simp only [previous?, Option.orElse_eq_orElse, Option.orElse_eq_or, Option.or_eq_some_iff] at h
  obtain h | ⟨-, h | ⟨-, h⟩⟩ := h
  · exact .inl (fields_of_ofFields? h).1
  · exact .inl (fields_of_ofFields? h).1
  · exact .inr (fields_of_ofFields? h)

theorem next?_cases (h : d.next? = some e) :
    e.year = d.year ∨ (e.year = d.year + 1 ∧ e.month = 1 ∧ e.day = 1) := by
  simp only [next?, Option.orElse_eq_orElse, Option.orElse_eq_or, Option.or_eq_some_iff] at h
  obtain h | ⟨-, h | ⟨-, h⟩⟩ := h
  · exact .inl (fields_of_ofFields? h).1
  · exact .inl (fields_of_ofFields? h).1
  · exact .inr (fields_of_ofFields? h)

end Date

namespace Timestamp

/-! ### Numbers in a text -/

theorem ofDigitChars_lt {ds : List Char} (h : ∀ c ∈ ds, c.isDigit) :
    Nat.ofDigitChars 10 ds 0 < 10 ^ ds.length := by
  induction ds using List.reverseRecOn with
  | nil => decide
  | append_singleton ds c ih =>
    have hfront := ih fun d hd => h d (List.mem_append_left _ hd)
    have hc := (Char.isDigit_iff_toNat.1 (h c (by simp))).2
    have hnine : '9'.toNat = 57 := rfl
    have hzero : '0'.toNat = 48 := rfl
    rw [Nat.ofDigitChars_append, Nat.ofDigitChars_cons, Nat.ofDigitChars_nil, List.length_append,
      List.length_singleton, Nat.pow_succ]
    omega

theorem takeNumber_lt {most n : Nat} {cs rest : List Char}
    (h : takeNumber most cs = some (n, rest)) : n < 10 ^ most := by
  unfold takeNumber at h
  dsimp only at h
  split at h
  · cases h
  · cases h
    have hlength : ((cs.take most).takeWhile Char.isDigit).length ≤ most :=
      Nat.le_trans (List.takeWhile_sublist _).length_le (List.length_take_le _ _)
    exact Nat.lt_of_lt_of_le (ofDigitChars_lt fun c => List.mem_takeWhile_imp)
      (Nat.pow_le_pow_right (by decide) hlength)

theorem takeFixed_lt {width n : Nat} {cs rest : List Char}
    (h : takeFixed width cs = some (n, rest)) : n < 10 ^ width := by
  unfold takeFixed at h
  dsimp only at h
  split at h
  · next hlength =>
    cases h
    have hdigits : ∀ c ∈ (cs.take width).takeWhile Char.isDigit, c.isDigit :=
      fun c => List.mem_takeWhile_imp
    have hlt := ofDigitChars_lt hdigits
    rwa [hlength] at hlt
  · cases h

/-! ### Forms without an offset -/

/-- Reading the part leaves the year as it is. -/
def PatternItem.KeepsYear : PatternItem → Prop
  | .year => False
  | .field set => ∀ f n, (set f n).year = f.year
  | _ => True

theorem PatternItem.KeepsYear.read {item : PatternItem} (hitem : item.KeepsYear) {f g : Fields}
    {cs rest : List Char} (h : item.read f cs = some (g, rest)) : g.year = f.year := by
  cases item with
  | year => exact hitem.elim
  | field set =>
    obtain ⟨n, -, hn⟩ := Option.map_eq_some_iff.1 h
    cases hn
    exact hitem f _
  | fraction =>
    simp only [PatternItem.read] at h
    split at h
    · obtain ⟨n, -, hn⟩ := Option.map_eq_some_iff.1 h
      cases hn
      rfl
    · cases h
      rfl
  | literal c =>
    obtain ⟨n, -, hn⟩ := Option.map_eq_some_iff.1 h
    cases hn
    rfl
  | blanks =>
    cases h
    rfl

theorem readPattern_keepsYear {items : List PatternItem} (hitems : ∀ item ∈ items, item.KeepsYear)
    {f g : Fields} {cs : List Char} (h : readPattern items f cs = some g) : g.year = f.year := by
  induction items generalizing f cs with
  | nil =>
    rw [readPattern] at h
    split at h <;> cases h
    rfl
  | cons item items ih =>
    obtain ⟨⟨between, rest⟩, hread, hrest⟩ := Option.bind_eq_some_iff.1 h
    calc g.year = between.year := ih (fun i hi => hitems i (List.mem_cons_of_mem _ hi)) hrest
      _ = f.year := (hitems item List.mem_cons_self).read hread

/-- Behind a digit stands no sign, so at most four digits are read. -/
theorem read_year_of_isDigit {f g : Fields} {cs rest : List Char}
    (hcs : (cs.take 4).all Char.isDigit) (h : PatternItem.year.read f cs = some (g, rest)) :
    0 ≤ g.year ∧ g.year ≤ 9999 := by
  cases cs with
  | nil => cases h
  | cons c cs =>
    have hc : c.isDigit := List.all_eq_true.1 hcs c (by simp)
    rw [PatternItem.read, trimStart_of_not_blank (isBlank_of_isDigit hc)] at h
    split at h
    · next hsign =>
      cases hsign
      cases hc
    · next hsign =>
      cases hsign
      cases hc
    · obtain ⟨⟨n, tail⟩, hn, hg⟩ := Option.map_eq_some_iff.1 h
      have hlt := takeNumber_lt hn
      cases hg
      simp only
      omega

theorem year_of_ofFields? {year : Int} {month day hour minute second nanosecond : Nat}
    {t : Timestamp} (h : ofFields? year month day hour minute second nanosecond = some t) :
    t.date.year = year := by
  obtain ⟨date, hdate, h⟩ := Option.bind_eq_some_iff.1 h
  obtain ⟨time, -, h⟩ := Option.bind_eq_some_iff.1 h
  cases h
  exact (Date.fields_of_ofFields? hdate).1

/-- Only second sixty is written for a leap second, so none is inside a minute. -/
theorem not_innerLeap_of_ofWritten? {hour minute second nanosecond : Nat} {t : TimeOfDay}
    (h : TimeOfDay.ofWritten? hour minute second nanosecond = some t) : ¬t.InnerLeap := by
  rintro ⟨hleap, hinner⟩
  unfold TimeOfDay.ofWritten? TimeOfDay.ofFields? at h
  split at h
  · cases h
  next hfraction =>
    split at h <;> split at h <;> cases h
    · exact hinner rfl
    · exact hfraction hleap

theorem not_innerLeap_of_ofFields? {year : Int} {month day hour minute second nanosecond : Nat}
    {t : Timestamp} (h : ofFields? year month day hour minute second nanosecond = some t) :
    ¬t.time.InnerLeap := by
  obtain ⟨date, -, h⟩ := Option.bind_eq_some_iff.1 h
  obtain ⟨time, htime, h⟩ := Option.bind_eq_some_iff.1 h
  cases h
  exact not_innerLeap_of_ofWritten? htime

theorem not_innerLeap_of_ofPattern? {items : List PatternItem} {cs : List Char} {t : Timestamp}
    (h : ofPattern? items cs = some t) : ¬t.time.InnerLeap := by
  obtain ⟨fields, -, h⟩ := Option.bind_eq_some_iff.1 h
  exact not_innerLeap_of_ofFields? h

theorem hasPlainYear_of_ofPattern? {items : List PatternItem} {cs : List Char} {t : Timestamp}
    (hitems : ∀ item ∈ items, item.KeepsYear) (hcs : (cs.take 4).all Char.isDigit)
    (h : ofPattern? (.year :: items) cs = some t) : t.HasPlainYear := by
  obtain ⟨fields, hread, ht⟩ := Option.bind_eq_some_iff.1 h
  obtain ⟨⟨first, rest⟩, hyear, hrest⟩ := Option.bind_eq_some_iff.1 hread
  have hfirst := read_year_of_isDigit hcs hyear
  rwa [HasPlainYear, year_of_ofFields? ht, readPattern_keepsYear hitems hrest]

/-- Every form without an offset begins with the year and has it only there. -/
theorem exists_dateTimePatterns_eq {items : List PatternItem}
    (h : items = datePattern ∨ items ∈ dateTimePatterns) :
    ∃ rest, items = .year :: rest ∧ ∀ item ∈ rest, item.KeepsYear := by
  simp only [dateTimePatterns, List.mem_cons, List.not_mem_nil, or_false] at h
  obtain rfl | rfl | rfl | rfl | rfl := h <;> refine ⟨_, rfl, ?_⟩ <;>
    simp [secondPattern, minutePattern, PatternItem.KeepsYear, PatternItem.month,
      PatternItem.day, PatternItem.hour, PatternItem.minute, PatternItem.second]

/-! ### Offsets -/

/-- The day before the plain years, or the day behind them. -/
def IsBesidePlainYears (t : Timestamp) : Prop :=
  (t.date.year = -1 ∧ t.date.month = 12 ∧ t.date.day = 31) ∨
    (t.date.year = 10000 ∧ t.date.month = 1 ∧ t.date.day = 1)

theorem IsBesidePlainYears.not_hasPlainYear {t : Timestamp} (h : t.IsBesidePlainYears) :
    ¬t.HasPlainYear := by
  unfold IsBesidePlainYears at h
  unfold HasPlainYear
  omega

theorem parts_of_bind {date? : Option Date} {time? : Option TimeOfDay} {t : Timestamp}
    (h : (date?.bind fun date => time?.bind fun time => some ⟨date, time⟩) = some t) :
    date? = some t.date ∧ time? = some t.time := by
  obtain ⟨date, hdate, h⟩ := Option.bind_eq_some_iff.1 h
  obtain ⟨time, htime, h⟩ := Option.bind_eq_some_iff.1 h
  cases h
  exact ⟨hdate, htime⟩

theorem fields_of_ofFields? {hour minute second nanosecond : Nat} {t : TimeOfDay}
    (h : TimeOfDay.ofFields? hour minute second nanosecond = some t) :
    t.second = second ∧ t.nanosecond = nanosecond := by
  unfold TimeOfDay.ofFields? at h
  split at h <;> cases h
  exact ⟨rfl, rfl⟩

/-- Less than a day leads no further than to a neighbouring day, and whole minutes keep the place in
the minute. -/
theorem parts_of_minusMinutes? {t u : Timestamp} {minutes : Int}
    (h : t.minusMinutes? minutes = some u) :
    (t.date.previous? = some u.date ∨ t.date.next? = some u.date ∨ u.date = t.date) ∧
      u.time.second = t.time.second ∧ u.time.nanosecond = t.time.nanosecond := by
  unfold minusMinutes? at h
  dsimp only at h
  split at h
  · exact ⟨.inl (parts_of_bind h).1, fields_of_ofFields? (parts_of_bind h).2⟩
  split at h
  · exact ⟨.inr (.inl (parts_of_bind h).1), fields_of_ofFields? (parts_of_bind h).2⟩
  · obtain ⟨hdate, htime⟩ := parts_of_bind h
    exact ⟨.inr (.inr (Option.some.inj hdate).symm), fields_of_ofFields? htime⟩

theorem HasPlainYear.minusMinutes? {t u : Timestamp} (ht : t.HasPlainYear) {minutes : Int}
    (h : t.minusMinutes? minutes = some u) : u.HasPlainYear ∨ u.IsBesidePlainYears := by
  unfold HasPlainYear IsBesidePlainYears at *
  obtain h | h | h := (parts_of_minusMinutes? h).1
  · have := Date.previous?_cases h
    omega
  · have := Date.next?_cases h
    omega
  · rw [h]
    exact .inl ht

/-- What is read with an offset has four digits for its year, and second sixty for a leap second,
before the offset is taken off. -/
theorem exists_of_readWithOffset {cs : List Char} {t : Timestamp} (h : readWithOffset cs = some t) :
    ∃ (u : Timestamp) (offset : Int), u.HasPlainYear ∧ ¬u.time.InnerLeap ∧
      u.minusMinutes? offset = some t := by
  obtain ⟨⟨year, _⟩, hyear, h⟩ := Option.bind_eq_some_iff.1 h
  have hyear := takeFixed_lt hyear
  -- the five fields behind the year with the signs between them
  iterate 10 obtain ⟨_, -, h⟩ := Option.bind_eq_some_iff.1 h
  dsimp only at h
  split at h
  all_goals
    obtain ⟨nanosecond, -, h⟩ := Option.bind_eq_some_iff.1 h
    obtain ⟨offset, -, h⟩ := Option.bind_eq_some_iff.1 h
    obtain ⟨u, hu, h⟩ := Option.bind_eq_some_iff.1 h
    have hplain : u.HasPlainYear := by
      rw [HasPlainYear, year_of_ofFields? hu]
      omega
    exact ⟨u, offset, hplain, not_innerLeap_of_ofFields? hu, h⟩

/-! ### Texts -/

/-- A text that is read begins with four digits, and is of a form without an offset or has one. -/
theorem parseIso?_cases {s : String} {t : Timestamp} (h : parseIso? s = some t) :
    ((Text.trim s.toList).take 4).all Char.isDigit ∧
      ((∃ items, (items = datePattern ∨ items ∈ dateTimePatterns) ∧
          ofPattern? items (Text.trim s.toList) = some t) ∨
        readWithOffset (Text.trim s.toList) = some t) := by
  simp only [parseIso?, parseIsoChars?] at h
  split at h
  · cases h
  next hgate =>
    rw [Bool.or_eq_true, not_or, Bool.not_eq_true', Bool.not_eq_false] at hgate
    refine ⟨hgate.2, ?_⟩
    split at h
    · exact .inl ⟨datePattern, .inl rfl, h⟩
    simp only [Option.orElse_eq_orElse, Option.orElse_eq_or, Option.or_eq_some_iff] at h
    obtain h | ⟨-, h⟩ := h
    · obtain ⟨items, hitems, h⟩ := List.exists_of_findSome?_eq_some h
      exact .inl ⟨items, .inr hitems, h⟩
    · exact .inr h

/-- A text gives a plain year, unless its offset leads out of the plain years. -/
theorem hasPlainYear_of_parseIso? {s : String} {t : Timestamp} (h : parseIso? s = some t) :
    t.HasPlainYear ∨ (readWithOffset (Text.trim s.toList) = some t ∧ t.IsBesidePlainYears) := by
  obtain ⟨hdigits, ⟨items, hitems, h⟩ | h⟩ := parseIso?_cases h
  · obtain ⟨rest, rfl, hrest⟩ := exists_dateTimePatterns_eq hitems
    exact .inl (hasPlainYear_of_ofPattern? hrest hdigits h)
  · obtain ⟨u, offset, hu, -, hoffset⟩ := exists_of_readWithOffset h
    obtain ht | ht := hu.minusMinutes? hoffset
    · exact .inl ht
    · exact .inr ⟨h, ht⟩

/-- No text gives a leap second inside a minute. -/
theorem not_innerLeap_of_parseIso? {s : String} {t : Timestamp} (h : parseIso? s = some t) :
    ¬t.time.InnerLeap := by
  obtain ⟨-, ⟨items, -, h⟩ | h⟩ := parseIso?_cases h
  · exact not_innerLeap_of_ofPattern? h
  · obtain ⟨u, offset, -, hu, hoffset⟩ := exists_of_readWithOffset h
    obtain ⟨-, hsecond, hnano⟩ := parts_of_minusMinutes? hoffset
    rwa [TimeOfDay.InnerLeap, hsecond, hnano]

/-- What a timestamp is shown as: on display, by the function STRING, and as plain JSON. -/
structure ShownAs (t : Timestamp) (view : String) : Prop where
  display : (Value.timestamp t).display = view
  call (now : Timestamp) : Query.Function.string.call now [.timestamp t] = .ok (.text view)
  json : (Value.timestamp t).toJson = .string view

theorem shownAs_text (t : Timestamp) : t.ShownAs t.text :=
  ⟨rfl, fun _ => rfl, rfl⟩

/-- A timestamp that was read from a text is shown as its written form and read again from that,
unless an offset has led out of the plain years: the year of the day on which it is then is written
with a sign, and the written form is not read. -/
theorem parseIso?_spec {s : String} {t : Timestamp} (h : parseIso? s = some t) :
    t.ShownAs t.text ∧
      ((t.HasPlainYear ∧ parseIso? t.text = some t) ∨
        (t.IsBesidePlainYears ∧ readWithOffset (Text.trim s.toList) = some t ∧
          parseIso? t.text = none)) := by
  have htext := parseIso?_text_eq t
  rw [reread_eq_self_iff.2 (not_innerLeap_of_parseIso? h)] at htext
  refine ⟨shownAs_text t, ?_⟩
  obtain ht | ⟨hoffset, ht⟩ := hasPlainYear_of_parseIso? h
  · exact .inl ⟨ht, by rw [htext, if_pos ht]⟩
  · exact .inr ⟨ht, hoffset, by rw [htext, if_neg ht.not_hasPlainYear]⟩

/-- A leap second is read again after its offset has been taken off, the last second of 9999 at an
offset of a minute is not. -/
theorem parseIso?_spec_leapSecond :
    (∃ t, parseIso? "2016-12-31T18:59:60.5-05:00" = some t ∧ t.ShownAs t.text ∧
      parseIso? t.text = some t) ∧
    ∃ t, parseIso? "9999-12-31T23:59:59-00:01" = some t ∧ t.ShownAs t.text ∧
      parseIso? t.text = none := by
  let leap : Timestamp := ⟨⟨2016, 12, 31, by decide, by decide, by decide⟩,
    ⟨23, 59, 59, 1500000000, by decide, by decide, by decide, by decide⟩⟩
  let late : Timestamp := ⟨⟨10000, 1, 1, by decide, by decide, by decide⟩,
    ⟨0, 0, 59, 0, by decide, by decide, by decide, by decide⟩⟩
  have hleap : parseIso? "2016-12-31T18:59:60.5-05:00" = some leap := by decide +kernel
  have hlate : parseIso? "9999-12-31T23:59:59-00:01" = some late := by decide +kernel
  refine ⟨⟨leap, hleap, ?_⟩, ⟨late, hlate, ?_⟩⟩
  · obtain ⟨hshown, ⟨-, hread⟩ | ⟨hbeside, -⟩⟩ := parseIso?_spec hleap
    · exact ⟨hshown, hread⟩
    · exact absurd (by decide) hbeside.not_hasPlainYear
  · obtain ⟨hshown, ⟨hplain, -⟩ | ⟨-, -, hread⟩⟩ := parseIso?_spec hlate
    · exact absurd hplain (by decide)
    · exact ⟨hshown, hread⟩

theorem parseIso?_spec_not_of_offset :
    ∃ t, parseIso? "0000-01-01T00:00:00+00:01" = some t ∧
      t.ShownAs "-0001-12-31T23:59:00" ∧ parseIso? "-0001-12-31T23:59:00" = none := by
  let t : Timestamp := ⟨⟨-1, 12, 31, by decide, by decide, by decide⟩,
    ⟨23, 59, 0, 0, by decide, by decide, by decide, by decide⟩⟩
  have hread : parseIso? "0000-01-01T00:00:00+00:01" = some t := by decide +kernel
  have htext : t.text = "-0001-12-31T23:59:00" := by decide +kernel
  exact ⟨t, hread, htext ▸ shownAs_text t, by decide +kernel⟩

end Timestamp

end RecordFlow
