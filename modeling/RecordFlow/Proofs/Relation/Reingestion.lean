import RecordFlow.Proofs.Relation.Construction
import RecordFlow.Proofs.Spill.RoundTrip
import RecordFlow.Stream.Basic

/-!
# A relation made of its own records

A value that has gone into a column goes in again as it is (`fitValue_fitValue`), so records that
have been fitted to a schema widen the same columns in the same rows when they are fitted once more
(`fitRecords_zip`). The first record suggests the same schema both times, and the relation of the
records of a relation is that relation again (`ofRecords_records_ofRecords`).
-/

namespace RecordFlow

namespace Relation

variable {schema : Schema}

/-- Fitting a value once more changes neither the value nor the domain. -/
theorem fitValue_fitValue (d : AttributeDomain) (v : Value) :
    fitValue d (fitValue d v).2 = fitValue d v := by
  cases h : v.coerce d.kind with
  | none => simp only [fitValue, h]
  | some c =>
    have hfit : fitValue d v = (d, c) := by rw [fitValue, h]
    rw [hfit]
    exact fitValue_of_fits (Value.fits_of_coerce h)

/-! ### Rows as records -/

theorem zip_names_map {α β : Type} (as : Attributes α) (f : String × α → β) :
    as.names.zip (as.map f) = as.map fun entry => (entry.1, f entry) := by
  rw [Attributes.names, List.zip_map']

/-- Fitting the record of a fitted row changes nothing. -/
theorem fitRecord_zip (hnames : schema.names.Nodup) (record : Record) :
    fitRecord schema (schema.names.zip (fitRecord schema record).2) = fitRecord schema record := by
  have hzip : schema.names.zip (fitRecord schema record).2 =
      schema.map fun entry => (entry.1, (fitValue entry.2 (record.value entry.1)).2) :=
    zip_names_map schema _
  have hdistinct : (Attributes.names (schema.names.zip (fitRecord schema record).2)).Nodup := by
    rw [hzip, Attributes.names, List.map_map]
    exact hnames
  refine fitRecord_congr fun entry hentry => ?_
  have hmem : (entry.1, (fitValue entry.2 (record.value entry.1)).2) ∈
      schema.names.zip (fitRecord schema record).2 := by
    rw [hzip]
    exact List.mem_map_of_mem (f := fun e => (e.1, (fitValue e.2 (record.value e.1)).2)) hentry
  rw [value_of_mem hdistinct hmem, fitValue_fitValue]

/-- Fitting the records of fitted rows changes nothing: every column is widened in the same row as
before. -/
theorem fitRecords_zip (hnames : schema.names.Nodup) (records : List Record) :
    fitRecords schema ((fitRecords schema records).2.map schema.names.zip) =
      fitRecords schema records := by
  induction records generalizing schema with
  | nil => rfl
  | cons record rest ih =>
    have hwidened := names_fitRecord schema record
    have hrest : fitRecords (fitRecord schema record).1
        ((fitRecords (fitRecord schema record).1 rest).2.map
          (fitRecord schema record).1.names.zip) =
        fitRecords (fitRecord schema record).1 rest := ih (by rwa [hwidened])
    rw [hwidened] at hrest
    rw [fitRecords_cons, List.map_cons, fitRecords_cons, fitRecord_zip hnames, hrest]

/-! ### The first record -/

/-- The first record goes into the schema that it suggests as it is. -/
theorem zip_fitRecord_suggestedSchema {first : Record}
    (hnames : (Attributes.names first).Nodup) :
    (suggestedSchema first).names.zip (fitRecord (suggestedSchema first) first).2 = first := by
  have hrow : (fitRecord (suggestedSchema first) first).2 = first.map (·.2) := by
    rw [fitRecord_eq, suggestedSchema]
    show List.map _ (List.map _ first) = _
    rw [List.map_map]
    refine List.map_congr_left fun field hfield => ?_
    have hfit := fitValue_of_fits (d := { kind := field.2.logicalType })
      (Value.fits_of_logicalType (v := field.2) rfl)
    rw [Function.comp_apply, value_of_mem hnames hfield, hfit]
  rw [hrow, names_suggestedSchema, zip_names_map]
  exact List.map_id' first

theorem records_ofRecords (records : List Record) : (ofRecords records).records =
    (ofRecords records).rows.map (ofRecords records).schema.names.zip := rfl

/-- A relation that is made of the records of a relation of records, or of a stream of them, is the
same relation: it has the same attributes in the same order, the same domains and the same rows. -/
theorem ofRecords_records_ofRecords (records : List NamedRecord) :
    let r := ofRecords (records.map (·.val))
    ofRecords r.records = r ∧ ∀ a, (RecordStream.ofRelation r).toRelation a = .ok r := by
  intro r
  have hsame : ofRecords r.records = r := by
    cases records with
    | nil => rfl
    | cons first rest =>
      have hnames : (suggestedSchema first.val).names.Nodup := by
        rw [names_suggestedSchema]
        exact first.property
      have hrefit := fitRecords_zip hnames ((first :: rest).map (·.val))
      have hhead : ((fitRecords (suggestedSchema first.val) ((first :: rest).map (·.val))).2.map
          (suggestedSchema first.val).names.zip).head? = some first.val := by
        rw [List.map_cons, fitRecords_cons, List.map_cons, List.head?_cons,
          zip_fitRecord_suggestedSchema first.property]
      have hschema : r.schema.names = (suggestedSchema first.val).names :=
        names_fitRecords (suggestedSchema first.val)
          ((first :: rest).map fun record : NamedRecord => record.val)
      rw [records_ofRecords, hschema]
      show ofRecords ((fitRecords (suggestedSchema first.val) ((first :: rest).map (·.val))).2.map
        (suggestedSchema first.val).names.zip) = _
      rw [ofRecords, hhead, Option.elim_some, hrefit]
      rfl
  refine ⟨hsame, fun a => ?_⟩
  show RecordStream.relationOf (Traversal.ofRecords r.records).items = _
  rw [Traversal.ofRecords, Traversal.items_ofItems, RecordStream.relationOf,
    Item.records_map_ok, Except.map, hsame]

/-- A column that is widened part-way and holds texts that are read as numbers before and behind
that, one that begins with NULL, and one whose texts denote timestamps. -/
def unevenRecords : List NamedRecord :=
  [.ofPairs [("n", .int 1), ("z", .null), ("s", .text "x")],
    .ofPairs [("n", .text " 2 "), ("s", .text "2021-03-04")],
    .ofPairs [("s", .null), ("n", .text "many"), ("z", .bool true)],
    .ofPairs [("n", .text "3"), ("z", .text "true"), ("extra", .int 4)]]

theorem ofRecords_records_unevenRecords :
    let r := ofRecords (unevenRecords.map (·.val))
    ofRecords r.records = r ∧ r.schema.entries.map (·.kind) = [.other, .other, .string] ∧
    (r.valuesAt 0).map Value.kindName = ["int", "int", "text", "text"] :=
  ⟨(ofRecords_records_ofRecords unevenRecords).1, by decide, by decide⟩

end Relation

end RecordFlow
