import RecordFlow.Proofs.Json.Depth
import RecordFlow.Proofs.Timestamp.RoundTrip
import RecordFlow.Value.Stored

/-!
# The stored form is read back

`Record.ofLine?_line_eq` says that the line of a record is read as that record with its numbers and
its timestamps as they are read (`Record.reread`), and refused if the record nests too deep. If the
numbers are found again by the reader of JSON (`Value.FloatsReadBack`), it is the same record, NaN
up to its payload, exactly when no timestamp in it is in a leap second inside a minute
(`Record.Spillable.reread_eq_quiet_iff`).
-/

namespace RecordFlow

namespace Value

/-! ### Numbers -/

mutual

/-- Every finite floating-point number in the value is found again by the reader of JSON. -/
def FloatsReadBack : Value → Prop
  | .float x => x.isFinite → Json.ReadsBack x
  | .list elements => ElementFloatsReadBack elements
  | .struct fields => FieldFloatsReadBack fields
  | _ => True

/-- Every element has only numbers that are found again. -/
def ElementFloatsReadBack : List Value → Prop
  | [] => True
  | v :: rest => FloatsReadBack v ∧ ElementFloatsReadBack rest

/-- Every field has only numbers that are found again. -/
def FieldFloatsReadBack : List (String × Value) → Prop
  | [] => True
  | (_, v) :: rest => FloatsReadBack v ∧ FieldFloatsReadBack rest

end

mutual

/-- The numbers of a value can be tried one by one. -/
instance decidableFloatsReadBack : (v : Value) → Decidable v.FloatsReadBack
  | .float x => inferInstanceAs (Decidable (x.isFinite → Json.ReadsBack x))
  | .list elements => decidableElementFloatsReadBack elements
  | .struct fields => decidableFieldFloatsReadBack fields
  | .null | .bool _ | .int _ | .text _ | .timestamp _ => instDecidableTrue

instance decidableElementFloatsReadBack : (elements : List Value) →
    Decidable (ElementFloatsReadBack elements)
  | [] => instDecidableTrue
  | v :: rest =>
    @instDecidableAnd _ _ (decidableFloatsReadBack v) (decidableElementFloatsReadBack rest)

instance decidableFieldFloatsReadBack : (fields : List (String × Value)) →
    Decidable (FieldFloatsReadBack fields)
  | [] => instDecidableTrue
  | (_, v) :: rest =>
    @instDecidableAnd _ _ (decidableFloatsReadBack v) (decidableFieldFloatsReadBack rest)

end

mutual

/-- The value with an empty payload in every NaN. -/
def quiet : Value → Value
  | .float x => .float (if x.isNaN then .nan false else x)
  | .list elements => .list (quietElements elements)
  | .struct fields => .struct (quietFields fields)
  | v => v

/-- The elements with an empty payload in every NaN. -/
def quietElements : List Value → List Value
  | [] => []
  | v :: rest => quiet v :: quietElements rest

/-- The fields with an empty payload in every NaN. -/
def quietFields : List (String × Value) → List (String × Value)
  | [] => []
  | (name, v) :: rest => (name, quiet v) :: quietFields rest

end

/-- What the stored form of a number is read as: a finite number is found by its digits, and NaN
loses its payload. -/
def rereadFloat (x : Binary64) : Binary64 :=
  if x.isFinite then x.reread else if x.isNaN then .nan false else x

mutual

/-- The value as its stored form is read. -/
def reread : Value → Value
  | .float x => .float (rereadFloat x)
  | .timestamp t => .timestamp t.reread
  | .list elements => .list (rereadElements elements)
  | .struct fields => .struct (rereadFields fields)
  | v => v

/-- The elements as their stored forms are read. -/
def rereadElements : List Value → List Value
  | [] => []
  | v :: rest => reread v :: rereadElements rest

/-- The fields as their stored forms are read. -/
def rereadFields : List (String × Value) → List (String × Value)
  | [] => []
  | (name, v) :: rest => (name, reread v) :: rereadFields rest

end

mutual

/-- Some timestamp in the value is in a leap second inside a minute. -/
def hasInnerLeap : Value → Bool
  | .timestamp t => t.time.InnerLeap
  | .list elements => elementsHaveInnerLeap elements
  | .struct fields => fieldsHaveInnerLeap fields
  | .null | .bool _ | .int _ | .float _ | .text _ => false

/-- Some timestamp in the elements is in a leap second inside a minute. -/
def elementsHaveInnerLeap : List Value → Bool
  | [] => false
  | v :: rest => hasInnerLeap v || elementsHaveInnerLeap rest

/-- Some timestamp in the fields is in a leap second inside a minute. -/
def fieldsHaveInnerLeap : List (String × Value) → Bool
  | [] => false
  | (_, v) :: rest => hasInnerLeap v || fieldsHaveInnerLeap rest

end

@[simp] theorem map_fst_rereadFields (fields : List (String × Value)) :
    (rereadFields fields).map (·.1) = fields.map (·.1) := by
  induction fields with
  | nil => rfl
  | cons field fields ih => rw [rereadFields, List.map_cons, ih, List.map_cons]

mutual

/-- Numbers that are found again are read as they are, and so is what has no leap second inside a
minute. -/
theorem reread_eq_quiet_iff : ∀ v : Value, v.FloatsReadBack →
    (v.reread = v.quiet ↔ v.hasInnerLeap = false)
  | .null, _ | .bool _, _ | .int _, _ | .text _, _ => by simp [reread, quiet, hasInnerLeap]
  | .timestamp t, _ => by
    simp [reread, quiet, hasInnerLeap, Timestamp.reread_eq_self_iff]
  | .float x, h => by
    have hread : reread (.float x) = quiet (.float x) := by
      by_cases hx : x.isFinite
      · rw [reread, rereadFloat, if_pos hx, (Json.readsBack_iff hx).1 (h hx), quiet,
          Binary64.isNaN_of_isFinite hx, if_neg Bool.false_ne_true]
      · rw [reread, rereadFloat, if_neg hx, quiet]
    simp [hread, hasInnerLeap]
  | .list elements, h => by
    rw [reread, quiet, list.injEq, hasInnerLeap, rereadElements_eq_quietElements_iff elements h]
  | .struct fields, h => by
    rw [reread, quiet, struct.injEq, hasInnerLeap, rereadFields_eq_quietFields_iff fields h]

theorem rereadElements_eq_quietElements_iff : ∀ elements : List Value,
    ElementFloatsReadBack elements →
    (rereadElements elements = quietElements elements ↔ elementsHaveInnerLeap elements = false)
  | [], _ => by simp [rereadElements, quietElements, elementsHaveInnerLeap]
  | v :: elements, h => by
    rw [rereadElements, quietElements, List.cons.injEq, reread_eq_quiet_iff v h.1,
      rereadElements_eq_quietElements_iff elements h.2, elementsHaveInnerLeap,
      Bool.or_eq_false_iff]

theorem rereadFields_eq_quietFields_iff : ∀ fields : List (String × Value),
    FieldFloatsReadBack fields →
    (rereadFields fields = quietFields fields ↔ fieldsHaveInnerLeap fields = false)
  | [], _ => by simp [rereadFields, quietFields, fieldsHaveInnerLeap]
  | (name, v) :: fields, h => by
    rw [rereadFields, quietFields, List.cons.injEq, Prod.mk.injEq, reread_eq_quiet_iff v h.1,
      rereadFields_eq_quietFields_iff fields h.2, fieldsHaveInnerLeap, Bool.or_eq_false_iff]
    exact and_congr_left' (and_iff_right rfl)

end

theorem readable_floatToStored (x : Binary64) : (floatToStored x).Readable := by
  unfold floatToStored
  split
  · next hx => exact hx
  split
  · trivial
  split <;> trivial

theorem floatOfStored?_reread_floatToStored (x : Binary64) :
    floatOfStored? (floatToStored x).reread = some (rereadFloat x) := by
  by_cases hf : x.isFinite
  · rw [floatToStored, if_pos hf, rereadFloat, if_pos hf]
    rfl
  by_cases hn : x.isNaN
  · rw [floatToStored, if_neg hf, if_pos hn, rereadFloat, if_neg hf, if_pos hn]
    rfl
  have hx := Binary64.eq_infinity hf hn
  rw [floatToStored, if_neg hf, if_neg hn, rereadFloat, if_neg hf, if_neg hn]
  split
  · next hneg =>
    rw [hneg] at hx
    rw [hx]
    rfl
  · next hpos =>
    rw [Bool.eq_false_iff.2 hpos] at hx
    rw [hx]
    rfl

/-! ### Values -/

mutual

theorem readable_toStored : ∀ v : Value, v.toStored.Readable
  | .null => trivial
  | .bool _ => ⟨trivial, trivial⟩
  | .int n => ⟨⟨n.le_toInt, Int.lt_trans n.toInt_lt (by decide)⟩, trivial⟩
  | .float x => ⟨readable_floatToStored x, trivial⟩
  | .text _ => ⟨trivial, trivial⟩
  | .timestamp _ => ⟨trivial, trivial⟩
  | .list elements => ⟨readable_elementsToStored elements, trivial⟩
  | .struct fields => ⟨readable_fieldsToStored fields, trivial⟩

theorem readable_elementsToStored : ∀ elements : List Value,
    Json.ElementsReadable (elementsToStored elements)
  | [] => trivial
  | v :: elements => ⟨readable_toStored v, readable_elementsToStored elements⟩

theorem readable_fieldsToStored : ∀ fields : List (String × Value),
    Json.MembersReadable (fieldsToStored fields)
  | [] => trivial
  | (_, v) :: fields => ⟨readable_toStored v, readable_fieldsToStored fields⟩

end

theorem leafOfStored?_int (n : Int64) : leafOfStored? "Int" (.int n.toInt) = some (.int n) := by
  have hlow := n.le_toInt
  have hhigh := n.toInt_lt
  simp only [leafOfStored?, Int64.ofInt_toInt]
  rw [if_pos (by simp only [Bool.and_eq_true, decide_eq_true_eq]; omega)]

theorem ofStored?_float (x : Binary64) :
    ofStored? (.object [("Float", (floatToStored x).reread)]) = some (.float (rereadFloat x)) := by
  have hleaf : ofStored? (.object [("Float", (floatToStored x).reread)]) =
      (floatOfStored? (floatToStored x).reread).map .float := by
    unfold floatToStored
    split_ifs <;> rfl
  rw [hleaf, floatOfStored?_reread_floatToStored]
  rfl

mutual

theorem ofStored?_reread_toStored : ∀ v : Value, v.WellFormed →
    ofStored? v.toStored.reread = some v.reread
  | .null, _ => rfl
  | .bool _, _ => rfl
  | .int n, _ => leafOfStored?_int n
  | .float x, _ => ofStored?_float x
  | .text _, _ => rfl
  | .timestamp t, _ => by
    simp [toStored, Json.reread, Json.rereadMembers, ofStored?, leafOfStored?, Timestamp.text,
      Timestamp.readStored_chars, reread]
  | .list elements, h => by
    simp [toStored, Json.reread, Json.rereadMembers, ofStored?,
      elementsOfStored?_rereadElements elements h, reread]
  | .struct fields, h => by
    have hnames : ((rereadFields fields).map (·.1)).Nodup := by
      rw [map_fst_rereadFields]
      exact h.1
    simp [toStored, Json.reread, Json.rereadMembers, ofStored?,
      fieldsOfStored?_rereadMembers fields h.2, reread, Attributes.ofPairs_of_nodup hnames]

theorem elementsOfStored?_rereadElements : ∀ elements : List Value, ElementsWellFormed elements →
    elementsOfStored? (Json.rereadElements (elementsToStored elements)) =
      some (rereadElements elements)
  | [], _ => rfl
  | v :: elements, h => by
    simp [elementsToStored, Json.rereadElements, elementsOfStored?, ofStored?_reread_toStored v h.1,
      elementsOfStored?_rereadElements elements h.2, rereadElements]

theorem fieldsOfStored?_rereadMembers :
    ∀ fields : List (String × Value), FieldsWellFormed fields →
    fieldsOfStored? (Json.rereadMembers (fieldsToStored fields)) = some (rereadFields fields)
  | [], _ => rfl
  | (name, v) :: fields, h => by
    simp [fieldsToStored, Json.rereadMembers, fieldsOfStored?, ofStored?_reread_toStored v h.1,
      fieldsOfStored?_rereadMembers fields h.2, rereadFields]

end

end Value

/-! ### Records -/

namespace Record

/-- The record with an empty payload in every NaN. -/
def quiet (r : Record) : Record :=
  Value.quietFields r

/-- The record as its line is read. -/
def reread (r : Record) : Record :=
  Value.rereadFields r

/-- Some timestamp in the record is in a leap second inside a minute. -/
def hasInnerLeap (r : Record) : Bool :=
  Value.fieldsHaveInnerLeap r

/-- The line of the record can be read: its names are distinct, its finite numbers are found again
and it nests no deeper than the reader of JSON goes. -/
structure Spillable (r : Record) : Prop where
  wellFormed : (Value.struct r).WellFormed
  floatsReadBack : Value.FieldFloatsReadBack r
  depth_le : r.toStored.depth ≤ Json.maxDepth

instance (r : Record) : Decidable r.Spillable :=
  decidable_of_iff ((Value.struct r).WellFormed ∧ Value.FieldFloatsReadBack r ∧
      r.toStored.depth ≤ Json.maxDepth)
    ⟨fun ⟨hwell, hfloats, hdepth⟩ => ⟨hwell, hfloats, hdepth⟩,
      fun h => ⟨h.wellFormed, h.floatsReadBack, h.depth_le⟩⟩

theorem ofStored?_reread_toStored {r : Record} (h : (Value.struct r).WellFormed) :
    ofStored? r.toStored.reread = some r.reread := by
  have hnames : ((Value.rereadFields r).map (·.1)).Nodup := by
    rw [Value.map_fst_rereadFields]
    exact h.1
  rw [toStored, Json.reread, ofStored?, Value.fieldsOfStored?_rereadMembers r h.2, Option.map_some,
    Attributes.ofPairs_of_nodup hnames]
  rfl

/-- The line of a record is read as that record with its numbers and timestamps as they are read,
and refused if the record nests deeper than the reader of JSON goes. -/
theorem ofLine?_line_eq {r : Record} (hwell : (Value.struct r).WellFormed) :
    ofLine? r.line.toList = if r.toStored.depth ≤ Json.maxDepth then some r.reread else none := by
  have hread := Json.read?_chars_eq (j := r.toStored) (Value.readable_fieldsToStored r)
  rw [ofLine?, line, Json.text, String.toList_ofList, hread]
  split
  · exact ofStored?_reread_toStored hwell
  · rfl

/-- The line of a record is read as that record, NaN up to its payload, exactly when no timestamp in
it is in a leap second inside a minute. -/
theorem Spillable.reread_eq_quiet_iff {r : Record} (h : r.Spillable) :
    r.reread = r.quiet ↔ r.hasInnerLeap = false :=
  Value.rereadFields_eq_quietFields_iff r h.floatsReadBack

theorem Spillable.ofLine?_line {r : Record} (h : r.Spillable) :
    ofLine? r.line.toList = some r.reread := by
  rw [ofLine?_line_eq h.wellFormed, if_pos h.depth_le]

theorem newline_not_mem_line (r : Record) : '\n' ∉ r.line.toList := by
  rw [line, Json.text, String.toList_ofList]
  exact Json.newline_not_mem_chars r.toStored

end Record

end RecordFlow
