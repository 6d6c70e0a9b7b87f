/-!
# Timestamps

A `Timestamp` is a date of the proleptic Gregorian calendar with a time of day to the nanosecond,
without a time zone. With a thousand million nanoseconds or more it is in a leap second. Clocks have
leap seconds at the end of a minute only, and so have the times that are read from a text
(`TimeOfDay.ofWritten?`), but a time of day can be in one anywhere. `Timestamp.compare` is the order
of the calendar; `dayNumber` and `epochSeconds` count days and seconds, a leap second counting as
the one before it.
-/

namespace RecordFlow

/-! ### Dates -/

def isLeapYear (year : Int) : Bool :=
  year % 4 == 0 && (year % 100 != 0 || year % 400 == 0)

def daysInMonth (year : Int) (month : Nat) : Nat :=
  match month with
  | 2 => if isLeapYear year then 29 else 28
  | 4 | 6 | 9 | 11 => 30
  | _ => 31

def yearInRange (year : Int) : Bool :=
  -262143 ≤ year && year ≤ 262142

/-- A calendar date. -/
structure Date where
  year : Int
  month : Nat
  day : Nat
  year_inRange : yearInRange year
  month_bounds : 1 ≤ month ∧ month ≤ 12
  day_bounds : 1 ≤ day ∧ day ≤ daysInMonth year month
deriving DecidableEq, Repr

namespace Date

/-- The date with these fields, if the calendar has it. -/
def ofFields? (year : Int) (month day : Nat) : Option Date :=
  if h : yearInRange year ∧ (1 ≤ month ∧ month ≤ 12) ∧ 1 ≤ day ∧ day ≤ daysInMonth year month then
    some ⟨year, month, day, h.1, h.2.1, h.2.2⟩
  else none

def daysBeforeMonth (year : Int) : Nat → Nat
  | 0 => 0
  | 1 => 0
  | month + 2 => daysBeforeMonth year (month + 1) + daysInMonth year (month + 1)

/-- The days before a year, counted from the first day of year one. -/
def daysBeforeYear (year : Int) : Int :=
  let past := year - 1
  365 * past + past / 4 - past / 100 + past / 400

/-- The place of a date in its year, from one. -/
def dayOfYear (d : Date) : Nat :=
  daysBeforeMonth d.year d.month + d.day

/-- The place of a date among all days; the first day of year one is day one. -/
def dayNumber (d : Date) : Int :=
  daysBeforeYear d.year + d.dayOfYear

/-- The day after, if the calendar has it. -/
def next? (d : Date) : Option Date :=
  ofFields? d.year d.month (d.day + 1) <|> ofFields? d.year (d.month + 1) 1 <|>
    ofFields? (d.year + 1) 1 1

/-- The day before, if the calendar has it. -/
def previous? (d : Date) : Option Date :=
  ofFields? d.year d.month (d.day - 1) <|>
    ofFields? d.year (d.month - 1) (daysInMonth d.year (d.month - 1)) <|>
    ofFields? (d.year - 1) 12 31

end Date

/-! ### Times of day -/

/-- A time of day. From a thousand million nanoseconds on it is in the leap second behind its
second. -/
structure TimeOfDay where
  hour : Nat
  minute : Nat
  second : Nat
  nanosecond : Nat
  hour_lt : hour < 24
  minute_lt : minute < 60
  second_lt : second < 60
  nanosecond_lt : nanosecond < 2000000000
deriving DecidableEq, Repr

namespace TimeOfDay

/-- The time with these fields, if they are in range. -/
def ofFields? (hour minute second nanosecond : Nat) : Option TimeOfDay :=
  if h : hour < 24 ∧ minute < 60 ∧ second < 60 ∧ nanosecond < 2000000000 then
    some ⟨hour, minute, second, nanosecond, h.1, h.2.1, h.2.2.1, h.2.2.2⟩
  else none

/-- The time that written fields stand for, if there is one. The nanoseconds are a fraction of the
second, and second sixty is the leap second at the end of the minute. -/
def ofWritten? (hour minute second nanosecond : Nat) : Option TimeOfDay :=
  if 1000000000 ≤ nanosecond then none
  else if second = 60 then ofFields? hour minute 59 (1000000000 + nanosecond)
  else ofFields? hour minute second nanosecond

def midnight : TimeOfDay :=
  ⟨0, 0, 0, 0, by decide, by decide, by decide, by decide⟩

def secondOfDay (t : TimeOfDay) : Nat :=
  t.hour * 3600 + t.minute * 60 + t.second

end TimeOfDay

/-! ### Timestamps -/

/-- A date with a time of day. -/
structure Timestamp where
  date : Date
  time : TimeOfDay
deriving DecidableEq, Repr

namespace Timestamp

/-- The timestamp that written fields stand for, if there is one. -/
def ofFields? (year : Int) (month day hour minute second nanosecond : Nat) : Option Timestamp := do
  let date ← Date.ofFields? year month day
  let time ← TimeOfDay.ofWritten? hour minute second nanosecond
  return ⟨date, time⟩

/-- The order of the calendar, field by field. -/
def compare (a b : Timestamp) : Ordering :=
  (Ord.compare a.date.year b.date.year).then <|
  (Ord.compare a.date.month b.date.month).then <|
  (Ord.compare a.date.day b.date.day).then <|
  (Ord.compare a.time.hour b.time.hour).then <|
  (Ord.compare a.time.minute b.time.minute).then <|
  (Ord.compare a.time.second b.time.second).then <|
  Ord.compare a.time.nanosecond b.time.nanosecond

def epochDay : Int := 719163

/-- The whole seconds since the first of January 1970. -/
def epochSeconds (t : Timestamp) : Int :=
  (t.date.dayNumber - epochDay) * 86400 + t.time.secondOfDay

/-- The timestamp some whole minutes, less than a day, earlier; a negative number of minutes goes
forward. Seconds do not change, so a leap second stays one. -/
def minusMinutes? (t : Timestamp) (minutes : Int) : Option Timestamp := do
  let total := (t.time.hour * 60 + t.time.minute : Int) - minutes
  let date ←
    if total < 0 then t.date.previous?
    else if 1440 ≤ total then t.date.next?
    else some t.date
  let minuteOfDay := (total % 1440).toNat
  let time ← TimeOfDay.ofFields? (minuteOfDay / 60) (minuteOfDay % 60) t.time.second
    t.time.nanosecond
  return ⟨date, time⟩

end Timestamp

end RecordFlow
