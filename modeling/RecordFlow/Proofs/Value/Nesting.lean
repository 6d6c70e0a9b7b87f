import RecordFlow.Proofs.Value.StoredRoundTrip

/-!
# How deep records nest

In the stored form of a value every list and every struct takes two levels, one for its tag and one
for its content, and any other value but null takes the level of its tag. `Record.levels` counts
them; a record is read from its line exactly when it has no more levels than the reader of JSON goes
down (`Record.ofLine?_line_of_levels`), and without floating-point numbers and leap seconds inside a
minute it is the same record (`Record.reread_eq_self_iff`).
-/

namespace RecordFlow

namespace Value

mutual

/-- The levels of arrays and objects that the stored form of a value nests. -/
def levels : Value → Nat
  | .null => 0
  | .list elements => elementLevels elements + 2
  | .struct fields => fieldLevels fields + 2
  | .bool _ | .int _ | .float _ | .text _ | .timestamp _ => 1

/-- The levels of the deepest element. -/
def elementLevels : List Value → Nat
  | [] => 0
  | v :: rest => max (levels v) (elementLevels rest)

/-- The levels of the deepest field. -/
def fieldLevels : List (String × Value) → Nat
  | [] => 0
  | (_, v) :: rest => max (levels v) (fieldLevels rest)

end

/-- Some lists around a value, one in another. -/
def nested : Nat → Value → Value
  | 0, v => v
  | n + 1, v => .list [nested n v]

/-- Each list costs two levels. -/
theorem levels_nested (n : Nat) (v : Value) : (nested n v).levels = 2 * n + v.levels := by
  induction n with
  | zero => simp [nested]
  | succ n ih =>
    rw [nested, levels, elementLevels, elementLevels, ih]
    omega

theorem wellFormed_nested (n : Nat) {v : Value} (h : v.WellFormed) : (nested n v).WellFormed := by
  induction n with
  | zero => exact h
  | succ n ih => exact ⟨ih, trivial⟩

theorem depth_floatToStored (x : Binary64) : (floatToStored x).depth = 0 := by
  unfold floatToStored
  split
  · rfl
  split
  · rfl
  split <;> rfl

mutual

theorem depth_toStored : ∀ v : Value, v.toStored.depth = v.levels
  | .null => rfl
  | .bool _ => rfl
  | .int _ => rfl
  | .float x => by
    simp [toStored, Json.depth, Json.membersDepth, depth_floatToStored, levels]
  | .text _ => rfl
  | .timestamp _ => rfl
  | .list elements => by
    simp [toStored, Json.depth, Json.membersDepth, elementsDepth_elementsToStored elements, levels]
  | .struct fields => by
    simp [toStored, Json.depth, Json.membersDepth, membersDepth_fieldsToStored fields, levels]

theorem elementsDepth_elementsToStored : ∀ elements : List Value,
    Json.elementsDepth (elementsToStored elements) = elementLevels elements
  | [] => rfl
  | v :: elements => by
    rw [elementsToStored, Json.elementsDepth, depth_toStored v,
      elementsDepth_elementsToStored elements, elementLevels]

theorem membersDepth_fieldsToStored : ∀ fields : List (String × Value),
    Json.membersDepth (fieldsToStored fields) = fieldLevels fields
  | [] => rfl
  | (_, v) :: fields => by
    rw [fieldsToStored, Json.membersDepth, depth_toStored v,
      membersDepth_fieldsToStored fields, fieldLevels]

end

/-! ### Values without floating-point numbers -/

mutual

/-- There is a floating-point number in the value. -/
def hasFloat : Value → Bool
  | .float _ => true
  | .list elements => elementsHaveFloat elements
  | .struct fields => fieldsHaveFloat fields
  | .null | .bool _ | .int _ | .text _ | .timestamp _ => false

/-- There is a floating-point number in one of the elements. -/
def elementsHaveFloat : List Value → Bool
  | [] => false
  | v :: rest => hasFloat v || elementsHaveFloat rest

/-- There is a floating-point number in one of the fields. -/
def fieldsHaveFloat : List (String × Value) → Bool
  | [] => false
  | (_, v) :: rest => hasFloat v || fieldsHaveFloat rest

end

mutual

/-- Without floating-point numbers only a leap second inside a minute is read as something else. -/
theorem reread_eq_self_iff : ∀ v : Value, v.hasFloat = false →
    (v.reread = v ↔ v.hasInnerLeap = false)
  | .null, _ | .bool _, _ | .int _, _ | .text _, _ => by simp [reread, hasInnerLeap]
  | .timestamp t, _ => by simp [reread, hasInnerLeap, Timestamp.reread_eq_self_iff]
  | .list elements, h => by
    rw [reread, list.injEq, hasInnerLeap, rereadElements_eq_self_iff elements h]
  | .struct fields, h => by
    rw [reread, struct.injEq, hasInnerLeap, rereadFields_eq_self_iff fields h]

theorem rereadElements_eq_self_iff : ∀ elements : List Value,
    elementsHaveFloat elements = false →
    (rereadElements elements = elements ↔ elementsHaveInnerLeap elements = false)
  | [], _ => by simp [rereadElements, elementsHaveInnerLeap]
  | v :: elements, h => by
    have hparts := Bool.or_eq_false_iff.1 h
    rw [rereadElements, List.cons.injEq, reread_eq_self_iff v hparts.1,
      rereadElements_eq_self_iff elements hparts.2, elementsHaveInnerLeap, Bool.or_eq_false_iff]

theorem rereadFields_eq_self_iff : ∀ fields : List (String × Value),
    fieldsHaveFloat fields = false →
    (rereadFields fields = fields ↔ fieldsHaveInnerLeap fields = false)
  | [], _ => by simp [rereadFields, fieldsHaveInnerLeap]
  | (name, v) :: fields, h => by
    have hparts := Bool.or_eq_false_iff.1 h
    rw [rereadFields, List.cons.injEq, Prod.mk.injEq, reread_eq_self_iff v hparts.1,
      rereadFields_eq_self_iff fields hparts.2, fieldsHaveInnerLeap, Bool.or_eq_false_iff]
    exact and_congr_left' (and_iff_right rfl)

end

end Value

/-! ### Records -/

namespace Record

/-- The levels of arrays and objects in the line of a record: one for the record, and those of its
deepest field. -/
def levels (r : Record) : Nat :=
  Value.fieldLevels r + 1

/-- There is a floating-point number in the record. -/
def hasFloat (r : Record) : Bool :=
  Value.fieldsHaveFloat r

theorem depth_toStored (r : Record) : r.toStored.depth = r.levels := by
  rw [toStored, Json.depth, Value.membersDepth_fieldsToStored, levels]

/-- The line of a record is read unless the record has more levels than the reader of JSON goes
down. -/
theorem ofLine?_line_of_levels {r : Record} (hwell : (Value.struct r).WellFormed) :
    ofLine? r.line.toList = if r.levels ≤ Json.maxDepth then some r.reread else none := by
  rw [ofLine?_line_eq hwell, depth_toStored]

theorem reread_eq_self_iff {r : Record} (hfloat : r.hasFloat = false) :
    r.reread = r ↔ r.hasInnerLeap = false :=
  Value.rereadFields_eq_self_iff r hfloat

end Record

end RecordFlow
