import RecordFlow.Proofs.Value.KeyEquality
import RecordFlow.Value.Hash

/-!
# What a value is fed as tells which value it is

`Value.identical` tells values apart by their kind and their whole content: floats by their bits and
fields by name and place. This is equality, so it decides equality of values.

The bytes that are hashed are read from the front: a value can be told from what follows its bytes
(`Value.told`), as long as the numbers of elements fit the eight bytes that they are written with.
Rows of one width and records of one number of fields with the same bytes are therefore the same.
-/

namespace RecordFlow

namespace Value

/-! ### Identical values -/

mutual

/-- Two values of one kind with the same content, bit by bit and in the same order. -/
def identical : Value → Value → Bool
  | .null, .null => true
  | .bool a, .bool b => a == b
  | .int a, .int b => a == b
  | .float x, .float y => x.bits == y.bits
  | .text a, .text b => a == b
  | .timestamp a, .timestamp b => a == b
  | .list as, .list bs => identicalElements as bs
  | .struct as, .struct bs => identicalFields as bs
  | _, _ => false

def identicalElements : List Value → List Value → Bool
  | [], [] => true
  | a :: as, b :: bs => identical a b && identicalElements as bs
  | _, _ => false

/-- The same names with identical values in the same order. -/
def identicalFields : List (String × Value) → List (String × Value) → Bool
  | [], [] => true
  | (m, a) :: as, (n, b) :: bs => m == n && identical a b && identicalFields as bs
  | _, _ => false

end

mutual

theorem identical_iff_eq : ∀ a b : Value, a.identical b ↔ a = b
  | .null, b => by cases b <;> simp [identical]
  | .bool _, b => by cases b <;> simp [identical]
  | .int _, b => by cases b <;> simp [identical]
  | .float x, b => by
    cases b with
    | float y => cases x; cases y; simp [identical]
    | _ => simp [identical]
  | .text _, b => by cases b <;> simp [identical]
  | .timestamp _, b => by cases b <;> simp [identical]
  | .list as, b => by
    cases b with
    | list bs => rw [identical, identicalElements_iff_eq as bs, list.injEq]
    | _ => simp [identical]
  | .struct as, b => by
    cases b with
    | struct bs => rw [identical, identicalFields_iff_eq as bs, struct.injEq]
    | _ => simp [identical]

theorem identicalElements_iff_eq : ∀ as bs : List Value, identicalElements as bs ↔ as = bs
  | [], bs => by cases bs <;> simp [identicalElements]
  | a :: as, bs => by
    cases bs with
    | nil => simp [identicalElements]
    | cons b bs =>
      rw [identicalElements, Bool.and_eq_true, identical_iff_eq a b,
        identicalElements_iff_eq as bs, List.cons.injEq]

theorem identicalFields_iff_eq :
    ∀ as bs : List (String × Value), identicalFields as bs ↔ as = bs
  | [], bs => by cases bs <;> simp [identicalFields]
  | (m, a) :: as, bs => by
    cases bs with
    | nil => simp [identicalFields]
    | cons field bs =>
      obtain ⟨n, b⟩ := field
      rw [identicalFields, Bool.and_eq_true, Bool.and_eq_true, beq_iff_eq, identical_iff_eq a b,
        identicalFields_iff_eq as bs, List.cons.injEq, Prod.mk.injEq]

end

instance : DecidableEq Value :=
  fun a b => decidable_of_iff _ (identical_iff_eq a b)

end Value

/-! ### Parts of a feed -/

/-- A number of so many bytes can be told from them. -/
theorem littleEndian_inj {width m n : Nat} (hm : m < 256 ^ width) (hn : n < 256 ^ width)
    (h : littleEndian width m = littleEndian width n) : m = n := by
  have horder := compareBytes_bigEndian hm hn
  rw [bigEndian, h, ← bigEndian, compareBytes_self] at horder
  exact Nat.compare_eq_eq.1 horder.symm

/-- A number of so many bytes can be told from what follows it. -/
theorem littleEndian_append_inj {width m n : Nat} (hm : m < 256 ^ width) (hn : n < 256 ^ width)
    {s t : List UInt8} (h : littleEndian width m ++ s = littleEndian width n ++ t) :
    m = n ∧ s = t := by
  obtain ⟨hnumber, hrest⟩ := List.append_inj h (by simp)
  exact ⟨littleEndian_inj hm hn hnumber, hrest⟩

/-- What stands in front of the first of two marks can be told from what stands behind it. -/
theorem append_mark_inj {α : Type} {mark : α} {as bs s t : List α} (ha : mark ∉ as)
    (hb : mark ∉ bs) (h : as ++ mark :: s = bs ++ mark :: t) : as = bs ∧ s = t := by
  induction as generalizing bs with
  | nil =>
    cases bs with
    | nil => exact ⟨rfl, (List.cons.inj h).2⟩
    | cons b bs =>
      obtain ⟨rfl, -⟩ := List.cons.inj h
      exact absurd List.mem_cons_self hb
  | cons a as ih =>
    cases bs with
    | nil =>
      obtain ⟨rfl, -⟩ := List.cons.inj h
      exact absurd List.mem_cons_self ha
    | cons b bs =>
      obtain ⟨rfl, hrest⟩ := List.cons.inj h
      obtain ⟨rfl, hst⟩ := ih (fun hmem => ha (List.mem_cons_of_mem a hmem))
        (fun hmem => hb (List.mem_cons_of_mem a hmem)) hrest
      exact ⟨rfl, hst⟩

/-- No byte of a character in UTF-8 is the end mark. -/
theorem toNat_lt_of_mem_utf8EncodeChar {c : Char} {b : UInt8}
    (h : b ∈ String.utf8EncodeChar c) : b.toNat < 0xFF := by
  have hshort : ∀ {n : Nat}, n < 0xFF → (UInt8.ofNat n).toNat < 0xFF := by
    intro n hn
    rw [UInt8.toNat_ofNat']
    omega
  revert h
  fun_cases String.utf8EncodeChar c <;> intro h <;>
    simp only [List.mem_cons, List.not_mem_nil, or_false] at h
  · subst h
    exact hshort (by omega)
  · rcases h with rfl | rfl <;> exact hshort (by omega)
  · rcases h with rfl | rfl | rfl <;> exact hshort (by omega)
  · rcases h with rfl | rfl | rfl | rfl <;> exact hshort (by omega)

theorem mark_not_mem_utf8Bytes (s : String) : (0xFF : UInt8) ∉ utf8Bytes s := by
  intro h
  rw [utf8Bytes_eq_flatMap, List.mem_flatMap] at h
  obtain ⟨c, -, hc⟩ := h
  exact absurd (toNat_lt_of_mem_utf8EncodeChar hc) (by decide)

theorem textFeed_append_inj {p q : String} {s t : List UInt8}
    (h : textFeed p ++ s = textFeed q ++ t) : p = q ∧ s = t := by
  rw [textFeed, textFeed, List.append_assoc, List.append_assoc] at h
  obtain ⟨hbytes, hst⟩ :=
    append_mark_inj (mark_not_mem_utf8Bytes p) (mark_not_mem_utf8Bytes q) h
  exact ⟨utf8Bytes_inj hbytes, hst⟩

/-! ### Timestamps -/

namespace Date

theorem dayOfYear_le_leapYear (d : Date) : d.dayOfYear ≤ 366 := by
  have hmonth := daysBeforeMonth_mono d.year (Nat.le_add_left 1 d.month)
    (show d.month + 1 ≤ 13 by have := d.month_bounds; omega)
  have hyear := daysBeforeYear_succ d.year
  have hday := d.dayOfYear_le
  simp only [daysBeforeYear] at hyear
  omega

theorem eq_of_dayNumber_eq {a b : Date} (h : a.dayNumber = b.dayNumber) : a = b := by
  have horder := compare_dayNumber a b
  rw [Int.compare_eq_eq.2 h] at horder
  obtain ⟨hyear, hrest⟩ := Ordering.then_eq_eq.1 horder.symm
  obtain ⟨hmonth, hday⟩ := Ordering.then_eq_eq.1 hrest
  cases a
  cases b
  simp only [mk.injEq]
  exact ⟨Int.compare_eq_eq.1 hyear, Nat.compare_eq_eq.1 hmonth, Nat.compare_eq_eq.1 hday⟩

end Date

namespace TimeOfDay

theorem eq_of_secondOfDay_eq {a b : TimeOfDay} (h : a.secondOfDay = b.secondOfDay)
    (hnano : a.nanosecond = b.nanosecond) : a = b := by
  have horder := compare_secondOfDay a b
  rw [Nat.compare_eq_eq.2 h] at horder
  obtain ⟨hhour, hrest⟩ := Ordering.then_eq_eq.1 horder.symm
  obtain ⟨hminute, hsecond⟩ := Ordering.then_eq_eq.1 hrest
  cases a
  cases b
  simp only [mk.injEq]
  exact ⟨Nat.compare_eq_eq.1 hhour, Nat.compare_eq_eq.1 hminute, Nat.compare_eq_eq.1 hsecond,
    hnano⟩

end TimeOfDay

namespace Timestamp

theorem weekdayBefore_le (year : Int) : weekdayBefore year ≤ 7 := by
  rw [weekdayBefore]
  split <;> omega

/-- The number of a date tells the date, also when only its lowest four bytes are known. -/
theorem dateCode_inj {a b : Date}
    (h : (dateCode a % 2 ^ 32).toNat = (dateCode b % 2 ^ 32).toNat) : a = b := by
  have hyears : ∀ d : Date, -262143 ≤ d.year ∧ d.year ≤ 262142 := by
    intro d
    simpa [yearInRange] using d.year_inRange
  have hday := a.dayOfYear_le_leapYear
  have hday' := b.dayOfYear_le_leapYear
  have hkind := weekdayBefore_le a.year
  have hkind' := weekdayBefore_le b.year
  have ha := hyears a
  have hb := hyears b
  simp only [dateCode] at h
  -- The years lie in a range of 2 ^ 19, so that the lowest bytes still have the whole year.
  have hyear : a.year = b.year := by
    split at h <;> split at h <;> omega
  rw [hyear] at h
  apply Date.eq_of_dayNumber_eq
  rw [Date.dayNumber, Date.dayNumber, hyear]
  omega

theorem feed_append_inj {a b : Timestamp} {s t : List UInt8} (h : a.feed ++ s = b.feed ++ t) :
    a = b ∧ s = t := by
  obtain ⟨d, p⟩ := a
  obtain ⟨e, q⟩ := b
  simp only [feed, List.append_assoc] at h
  have hcode : ∀ d : Date, (dateCode d % 2 ^ 32).toNat < 256 ^ 4 := fun d => by omega
  have hsecond : ∀ time : TimeOfDay, time.secondOfDay < 256 ^ 4 := fun time =>
    Nat.lt_trans time.secondOfDay_lt (by decide)
  obtain ⟨hdate, h⟩ := littleEndian_append_inj (hcode d) (hcode e) h
  obtain ⟨hseconds, h⟩ := littleEndian_append_inj (hsecond p) (hsecond q) h
  obtain ⟨hnano, hst⟩ := littleEndian_append_inj p.nanosecond_lt_word q.nanosecond_lt_word h
  obtain rfl := dateCode_inj hdate
  obtain rfl := TimeOfDay.eq_of_secondOfDay_eq hseconds hnano
  exact ⟨rfl, hst⟩

end Timestamp

/-! ### Values -/

namespace Value

/-- The number of elements or fields fits the eight bytes that it is written with. -/
def IsCounted (v : Value) : Prop :=
  v.inner.length < 2 ^ 64

instance : DecidablePred IsCounted :=
  fun v => inferInstanceAs (Decidable (v.inner.length < 2 ^ 64))

/-- Bytes that begin with those of two values are equal only if the values are. -/
def Told (a : Value) : Prop :=
  ∀ b s t, a.Everywhere IsCounted → b.Everywhere IsCounted → a.feed ++ s = b.feed ++ t →
    a = b ∧ s = t

/-- A value with only plain values inside. -/
theorem Everywhere.flat {p : Value → Prop} {v : Value} (h : p v)
    (hinner : ∀ u ∈ v.inner, u.inner = [] ∧ p u) : v.Everywhere p :=
  .intro v h fun u hu => .leaf (hinner u hu).1 (hinner u hu).2

theorem isCounted_struct (fields : List (String × Value)) :
    (struct fields).IsCounted ↔ fields.length < 2 ^ 64 := by
  rw [IsCounted, inner, List.length_map]

theorem elementsFeed_append_inj {as bs : List Value} {s t : List UInt8}
    (htold : ∀ a ∈ as, a.Told) (ha : ∀ a ∈ as, a.Everywhere IsCounted)
    (hb : ∀ b ∈ bs, b.Everywhere IsCounted) (hlength : as.length = bs.length)
    (h : elementsFeed as ++ s = elementsFeed bs ++ t) : as = bs ∧ s = t := by
  induction as generalizing bs with
  | nil =>
    obtain rfl := List.eq_nil_of_length_eq_zero hlength.symm
    exact ⟨rfl, h⟩
  | cons a as ih =>
    cases bs with
    | nil => cases hlength
    | cons b bs =>
      rw [List.forall_mem_cons] at htold ha hb
      rw [elementsFeed, elementsFeed, List.append_assoc, List.append_assoc] at h
      obtain ⟨rfl, hrest⟩ := htold.1 b _ _ ha.1 hb.1 h
      obtain ⟨rfl, hst⟩ := ih htold.2 ha.2 hb.2 (Nat.succ.inj hlength) hrest
      exact ⟨rfl, hst⟩

theorem fieldsFeed_append_inj {as bs : List (String × Value)} {s t : List UInt8}
    (htold : ∀ field ∈ as, field.2.Told) (ha : ∀ field ∈ as, field.2.Everywhere IsCounted)
    (hb : ∀ field ∈ bs, field.2.Everywhere IsCounted) (hlength : as.length = bs.length)
    (h : fieldsFeed as ++ s = fieldsFeed bs ++ t) : as = bs ∧ s = t := by
  induction as generalizing bs with
  | nil =>
    obtain rfl := List.eq_nil_of_length_eq_zero hlength.symm
    exact ⟨rfl, h⟩
  | cons first as ih =>
    cases bs with
    | nil => cases hlength
    | cons second bs =>
      obtain ⟨m, a⟩ := first
      obtain ⟨n, b⟩ := second
      rw [List.forall_mem_cons] at htold ha hb
      simp only [fieldsFeed, List.append_assoc] at h
      obtain ⟨rfl, hvalue⟩ := textFeed_append_inj h
      obtain ⟨rfl, hrest⟩ := htold.1 b _ _ ha.1 hb.1 hvalue
      obtain ⟨rfl, hst⟩ := ih htold.2 ha.2 hb.2 (Nat.succ.inj hlength) hrest
      exact ⟨rfl, hst⟩

/-- What comes first in equal byte strings are feeds of equal values. -/
theorem told (a : Value) : a.Told := by
  -- The tag tells the kind, and every kind says by a width, a mark or a number where it ends.
  induction a using inner_induction with
  | step a ih =>
    intro b s t ha hb h
    cases a with
    | null =>
      cases b with
      | null => exact ⟨rfl, (List.cons.inj h).2⟩
      | _ => simp [feed] at h
    | bool p =>
      cases b with
      | bool q =>
        have htail := (List.cons.inj h).2
        cases p <;> cases q <;> cases htail <;> exact ⟨rfl, rfl⟩
      | _ => simp [feed] at h
    | int m =>
      cases b with
      | int n =>
        obtain ⟨hbits, hst⟩ := littleEndian_append_inj (UInt64.toNat_lt _) (UInt64.toNat_lt _)
          (List.cons.inj h).2
        exact ⟨congrArg (fun bits => int ⟨bits⟩) (UInt64.toNat_inj.1 hbits), hst⟩
      | _ => simp [feed] at h
    | float x =>
      cases b with
      | float y =>
        obtain ⟨hbits, hst⟩ := littleEndian_append_inj (UInt64.toNat_lt _) (UInt64.toNat_lt _)
          (List.cons.inj h).2
        exact ⟨congrArg (fun bits => float ⟨bits⟩) (UInt64.toNat_inj.1 hbits), hst⟩
      | _ => simp [feed] at h
    | text p =>
      cases b with
      | text q =>
        obtain ⟨rfl, hst⟩ := textFeed_append_inj (List.cons.inj h).2
        exact ⟨rfl, hst⟩
      | _ => simp [feed] at h
    | timestamp p =>
      cases b with
      | timestamp q =>
        obtain ⟨rfl, hst⟩ := Timestamp.feed_append_inj (List.cons.inj h).2
        exact ⟨rfl, hst⟩
      | _ => simp [feed] at h
    | list as =>
      cases b with
      | list bs =>
        simp only [feed, List.cons_append, List.append_assoc, List.cons.injEq, true_and] at h
        obtain ⟨hlength, hrest⟩ := littleEndian_append_inj ha.here hb.here h
        obtain ⟨rfl, hst⟩ := elementsFeed_append_inj ih ha.inside hb.inside hlength hrest
        exact ⟨rfl, hst⟩
      | _ => simp [feed] at h
    | struct as =>
      cases b with
      | struct bs =>
        simp only [feed, List.cons_append, List.append_assoc, List.cons.injEq, true_and] at h
        obtain ⟨hlength, hrest⟩ := littleEndian_append_inj
          ((isCounted_struct as).1 ha.here) ((isCounted_struct bs).1 hb.here) h
        have hfields : ∀ {p : Value → Prop} {fields : List (String × Value)},
            (∀ u ∈ (struct fields).inner, p u) → ∀ field ∈ fields, p field.2 :=
          fun hall field hfield => hall field.2 (List.mem_map_of_mem hfield)
        obtain ⟨rfl, hst⟩ := fieldsFeed_append_inj (hfields ih) (hfields ha.inside)
          (hfields hb.inside) hlength hrest
        exact ⟨rfl, hst⟩
      | _ => simp [feed] at h

end Value

/-! ### Rows and records -/

/-- Rows of one width are told apart by their bytes. -/
theorem Tuple.feed_inj {row row' : Tuple} (hrow : ∀ v ∈ row, v.Everywhere Value.IsCounted)
    (hrow' : ∀ v ∈ row', v.Everywhere Value.IsCounted) (hlength : row.length = row'.length)
    (h : row.feed = row'.feed) : row = row' := by
  rw [feed, feed, hlength] at h
  have hvalues := List.append_cancel_left h
  exact (Value.elementsFeed_append_inj (fun v _ => v.told) hrow hrow' hlength
    (congrArg (· ++ []) hvalues)).1

/-- Records of one number of fields are told apart by their bytes. -/
theorem Record.feed_inj {r s : Record} (hr : ∀ field ∈ r, field.2.Everywhere Value.IsCounted)
    (hs : ∀ field ∈ s, field.2.Everywhere Value.IsCounted) (hlength : r.length = s.length)
    (h : r.feed = s.feed) : r = s := by
  rw [feed, feed, hlength] at h
  have hfields := List.append_cancel_left h
  exact (Value.fieldsFeed_append_inj (fun field _ => field.2.told) hr hs hlength
    (congrArg (· ++ []) hfields)).1

end RecordFlow
