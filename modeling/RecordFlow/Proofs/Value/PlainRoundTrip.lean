import RecordFlow.Proofs.Value.StoredRoundTrip
import RecordFlow.Value.Plain

/-!
# The plain view is read back

Ordinary JSON has no timestamps and no infinities, so a record is not always read back from its
plain view: `Record.ofJson?_toJson_text` says what is read instead (`Record.plain`), and that it is
read unless the view nests too deep. Where there are neither floating-point numbers nor timestamps
nothing is lost (`Value.plain_of_isPlain`).
-/

namespace RecordFlow

namespace Value

mutual

/-- The value as its plain view is read: a timestamp is the text that shows it, a finite number is
found by its digits, and numbers that JSON does not have are null. -/
def plain : Value → Value
  | .float x => if x.isFinite then .float x.reread else .null
  | .timestamp t => .text t.text
  | .list elements => .list (plainElements elements)
  | .struct fields => .struct (plainFields fields)
  | v => v

/-- The elements as their plain views are read. -/
def plainElements : List Value → List Value
  | [] => []
  | v :: rest => plain v :: plainElements rest

/-- The fields as their plain views are read. -/
def plainFields : List (String × Value) → List (String × Value)
  | [] => []
  | (name, v) :: rest => (name, plain v) :: plainFields rest

end

@[simp] theorem map_fst_plainFields (fields : List (String × Value)) :
    (plainFields fields).map (·.1) = fields.map (·.1) := by
  induction fields with
  | nil => rfl
  | cons field fields ih => rw [plainFields, List.map_cons, ih, List.map_cons]

theorem ofInteger_toInt (n : Int64) : ofInteger n.toInt = .int n := by
  have hlow := n.le_toInt
  have hhigh := n.toInt_lt
  rw [ofInteger, if_pos (by simp only [Bool.and_eq_true, decide_eq_true_eq]; omega),
    Int64.ofInt_toInt]

mutual

theorem readable_toJson : ∀ v : Value, v.toJson.Readable
  | .null => trivial
  | .bool _ => trivial
  | .int n => ⟨n.le_toInt, Int.lt_trans n.toInt_lt (by decide)⟩
  | .float x => by
    by_cases hx : x.isFinite
    · rw [toJson, if_pos hx]
      exact hx
    · rw [toJson, if_neg hx]
      trivial
  | .text _ => trivial
  | .timestamp _ => trivial
  | .list elements => readable_elementsToJson elements
  | .struct fields => readable_fieldsToJson fields

theorem readable_elementsToJson : ∀ elements : List Value,
    Json.ElementsReadable (elementsToJson elements)
  | [] => trivial
  | v :: elements => ⟨readable_toJson v, readable_elementsToJson elements⟩

theorem readable_fieldsToJson : ∀ fields : List (String × Value),
    Json.MembersReadable (fieldsToJson fields)
  | [] => trivial
  | (_, v) :: fields => ⟨readable_toJson v, readable_fieldsToJson fields⟩

end

mutual

theorem ofJson_reread_toJson : ∀ v : Value, v.WellFormed → ofJson v.toJson.reread = v.plain
  | .null, _ => rfl
  | .bool _, _ => rfl
  | .int n, _ => ofInteger_toInt n
  | .float x, _ => by
    by_cases hx : x.isFinite
    · rw [toJson, if_pos hx, plain, if_pos hx]
      rfl
    · rw [toJson, if_neg hx, plain, if_neg hx]
      rfl
  | .text _, _ => rfl
  | .timestamp _, _ => rfl
  | .list elements, h =>
    congrArg list (elementsOfJson_rereadElements elements h)
  | .struct fields, h => by
    have hnames : ((plainFields fields).map (·.1)).Nodup := by
      rw [map_fst_plainFields]
      exact h.1
    rw [toJson, Json.reread, ofJson, fieldsOfJson_rereadMembers fields h.2,
      Attributes.ofPairs_of_nodup hnames, plain]

theorem elementsOfJson_rereadElements : ∀ elements : List Value, ElementsWellFormed elements →
    elementsOfJson (Json.rereadElements (elementsToJson elements)) = plainElements elements
  | [], _ => rfl
  | v :: elements, h => by
    rw [elementsToJson, Json.rereadElements, elementsOfJson, ofJson_reread_toJson v h.1,
      elementsOfJson_rereadElements elements h.2, plainElements]

theorem fieldsOfJson_rereadMembers :
    ∀ fields : List (String × Value), FieldsWellFormed fields →
    fieldsOfJson (Json.rereadMembers (fieldsToJson fields)) = plainFields fields
  | [], _ => rfl
  | (name, v) :: fields, h => by
    rw [fieldsToJson, Json.rereadMembers, fieldsOfJson, ofJson_reread_toJson v h.1,
      fieldsOfJson_rereadMembers fields h.2, plainFields]

end

/-! ### Values that JSON has -/

mutual

/-- There is neither a floating-point number nor a timestamp in the value. -/
def isPlain : Value → Bool
  | .float _ | .timestamp _ => false
  | .list elements => elementsArePlain elements
  | .struct fields => fieldsArePlain fields
  | .null | .bool _ | .int _ | .text _ => true

/-- There is neither a floating-point number nor a timestamp in any of the elements. -/
def elementsArePlain : List Value → Bool
  | [] => true
  | v :: rest => isPlain v && elementsArePlain rest

/-- There is neither a floating-point number nor a timestamp in any of the fields. -/
def fieldsArePlain : List (String × Value) → Bool
  | [] => true
  | (_, v) :: rest => isPlain v && fieldsArePlain rest

end

theorem fieldsArePlain_iff {fields : List (String × Value)} :
    fieldsArePlain fields ↔ ∀ field ∈ fields, field.2.isPlain := by
  induction fields with
  | nil => simp [fieldsArePlain]
  | cons field fields ih => rw [fieldsArePlain, Bool.and_eq_true, ih, List.forall_mem_cons]

mutual

theorem plain_of_isPlain : ∀ v : Value, v.isPlain → v.plain = v
  | .float _, h | .timestamp _, h => Bool.noConfusion h
  | .null, _ | .bool _, _ | .int _, _ | .text _, _ => rfl
  | .list elements, h => congrArg list (plainElements_of_arePlain elements h)
  | .struct fields, h => congrArg struct (plainFields_of_arePlain fields h)

theorem plainElements_of_arePlain : ∀ elements : List Value,
    elementsArePlain elements → plainElements elements = elements
  | [], _ => rfl
  | v :: elements, h => by
    obtain ⟨hv, hrest⟩ := Bool.and_eq_true_iff.1 h
    rw [plainElements, plain_of_isPlain v hv, plainElements_of_arePlain elements hrest]

theorem plainFields_of_arePlain : ∀ fields : List (String × Value),
    fieldsArePlain fields → plainFields fields = fields
  | [], _ => rfl
  | (_, v) :: fields, h => by
    obtain ⟨hv, hrest⟩ := Bool.and_eq_true_iff.1 h
    rw [plainFields, plain_of_isPlain v hv, plainFields_of_arePlain fields hrest]

end

end Value

namespace Record

/-- The record as its plain view is read. -/
def plain (r : Record) : Record :=
  Value.plainFields r

theorem plain_of_forall {r : Record} (h : ∀ field ∈ r, field.2.isPlain) : r.plain = r :=
  Value.plainFields_of_arePlain r (Value.fieldsArePlain_iff.2 h)

theorem ofJson?_reread_toJson {r : Record} (h : (Value.struct r).WellFormed) :
    ofJson? r.toJson.reread = some r.plain := by
  have hnames : ((Value.plainFields r).map (·.1)).Nodup := by
    rw [Value.map_fst_plainFields]
    exact h.1
  rw [toJson, Json.reread, ofJson?, Value.fieldsOfJson_rereadMembers r h.2,
    Attributes.ofPairs_of_nodup hnames]
  rfl

/-- The text of the plain view is refused if it nests deeper than the reader of JSON goes. -/
theorem ofJson?_toJson_text {r : Record} (h : (Value.struct r).WellFormed) :
    (Json.read? r.toJson.text.toList).bind ofJson? =
      if r.toJson.depth ≤ Json.maxDepth then some r.plain else none := by
  have hread := Json.read?_chars_eq (j := r.toJson) (Value.readable_fieldsToJson r)
  rw [Json.text, String.toList_ofList, hread]
  split
  · exact ofJson?_reread_toJson h
  · rfl

end Record

end RecordFlow
