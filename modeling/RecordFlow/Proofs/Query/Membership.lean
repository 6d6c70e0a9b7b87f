import RecordFlow.Proofs.Value.Equality
import RecordFlow.Query.Operator

/-!
# Membership in a list

`IN` and `CONTAINS` on a list ask each element for equality as it stands, while the equality
operator first reads a text beside a timestamp as a timestamp. Where one is read, the two values
are of different kinds and not equal as they stand, so membership is the disjunction of those
equalities for which no text is read (`Operator.isIn_iff_exists_eq`).
-/

namespace RecordFlow.Query

/-- The values are a timestamp and a text that denotes one. -/
def readsText : Value → Value → Bool
  | .timestamp _, .text s => (Timestamp.parseIso? s).isSome
  | .text s, .timestamp _ => (Timestamp.parseIso? s).isSome
  | _, _ => false

theorem alignTemporal_of_not_readsText {a b : Value} (h : readsText a b = false) :
    alignTemporal a b = (a, b) := by
  fun_cases readsText a b with
  | case1 t s | case2 s t =>
    rw [readsText, Option.isSome_eq_false_iff, Option.isNone_iff_eq_none] at h
    rw [alignTemporal, h]
  | case3 a b hleft hright =>
    rw [alignTemporal]
    · exact hleft
    · exact hright

theorem equal_eq_false_of_readsText {a b : Value} (h : readsText a b) : a.equal b = false := by
  fun_cases readsText a b with
  | case1 | case2 => rfl
  | case3 a b hleft hright =>
    rw [readsText] at h
    · cases h
    · exact hleft
    · exact hright

namespace Operator

/-- Two values are equal as they stand if the operator holds of them and reads no text. -/
theorem equal_iff_eq_apply (a b : Value) :
    a.equal b ↔ eq.apply a b ∧ readsText a b = false := by
  cases hreads : readsText a b with
  | true => simp [equal_eq_false_of_readsText hreads]
  | false => simp [apply, applyAligned, alignTemporal_of_not_readsText hreads]

theorem apply_list_left (op : Operator) (elements : List Value) (v : Value) :
    op.apply (.list elements) v = op.applyAligned (.list elements) v := by
  rw [apply, alignTemporal_of_not_readsText]
  cases v <;> rfl

theorem apply_list_right (op : Operator) (v : Value) (elements : List Value) :
    op.apply v (.list elements) = op.applyAligned v (.list elements) := by
  rw [apply, alignTemporal_of_not_readsText]
  cases v <;> rfl

theorem contains_iff_exists_equal (elements : List Value) (v : Value) :
    contains.apply (.list elements) v ↔ ∃ e ∈ elements, e.equal v := by
  rw [apply_list_left, applyAligned, memberOf, List.any_eq_true]

theorem isIn_iff_exists_equal (v : Value) (elements : List Value) :
    isIn.apply v (.list elements) ↔ ∃ e ∈ elements, e.equal v := by
  rw [apply_list_right, applyAligned, memberOf, List.any_eq_true]

/-- A value is in a list if it equals an element, and a list contains a value if an element equals
it, where no text has to be read as a timestamp for it. -/
theorem isIn_iff_exists_eq (v : ProperValue) (elements : List ProperValue) :
    (isIn.apply v.val (.list (elements.map (·.val))) ↔
      ∃ e ∈ elements, eq.apply v.val e.val ∧ readsText v.val e.val = false) ∧
    (contains.apply (.list (elements.map (·.val))) v.val ↔
      ∃ e ∈ elements, eq.apply e.val v.val ∧ readsText e.val v.val = false) := by
  constructor
  · simp only [isIn_iff_exists_equal, List.mem_map, exists_exists_and_eq_and]
    refine exists_congr fun e => and_congr_right fun _ => ?_
    rw [Value.equal_comm e.property v.property, equal_iff_eq_apply]
  · simp only [contains_iff_exists_equal, List.mem_map, exists_exists_and_eq_and]
    refine exists_congr fun e => and_congr_right fun _ => ?_
    rw [equal_iff_eq_apply]

theorem isIn_iff_exists_eq_records :
    isIn.apply (.struct [("a", .int 1), ("b", .null)])
      (.list [.text "a", .struct [("b", .null), ("a", .int 1)]]) ∧
    contains.apply (.list [.text "a", .struct [("b", .null), ("a", .int 1)]])
      (.struct [("a", .int 1), ("b", .null)]) := by
  let e : ProperValue := ⟨.struct [("b", .null), ("a", .int 1)], by decide⟩
  obtain ⟨hin, hcontains⟩ := isIn_iff_exists_eq ⟨.struct [("a", .int 1), ("b", .null)], by decide⟩
    [⟨.text "a", trivial⟩, e]
  exact ⟨hin.2 ⟨e, by simp, by decide, rfl⟩, hcontains.2 ⟨e, by simp, by decide, rfl⟩⟩

/-- A text equals the timestamp that it denotes, on either side. -/
theorem eq_apply_of_parseIso? {s : String} {t : Timestamp} (h : Timestamp.parseIso? s = some t) :
    eq.apply (.text s) (.timestamp t) ∧ eq.apply (.timestamp t) (.text s) := by
  have hself : (Value.timestamp t).equal (.timestamp t) := by
    rw [Value.equal, Value.compare?, Timestamp.compare_eq_eq_iff.2 rfl]
    · rfl
    all_goals simp
  simp [apply, alignTemporal, h, applyAligned, hself]

/-- A text that equals a timestamp is not in the list of this timestamp. -/
theorem isIn_iff_exists_eq_not_of_date :
    ∃ t, Timestamp.parseIso? "2021-01-01" = some t ∧
      eq.apply (.text "2021-01-01") (.timestamp t) = true ∧
      isIn.apply (.text "2021-01-01") (.list [.timestamp t]) = false ∧
      eq.apply (.timestamp t) (.text "2021-01-01") = true ∧
      contains.apply (.list [.timestamp t]) (.text "2021-01-01") = false := by
  obtain ⟨t, ht⟩ : ∃ t, Timestamp.parseIso? "2021-01-01" = some t :=
    Option.isSome_iff_exists.1 (by decide)
  obtain ⟨hleft, hright⟩ := eq_apply_of_parseIso? ht
  exact ⟨t, ht, hleft, rfl, hright, rfl⟩

end Operator

end RecordFlow.Query
