import RecordFlow.Proofs.Relation.Statistics

/-!
# Relations of records

`Relation.WellFormed` is what holds of a relation at any time: the promises that rows and schema
make each other, the kinds of the values in every column, and statistics that are those of the
column. A relation of records is well formed (`Relation.wellFormed_ofRecords`): a value that does
not go into its column makes the column one of all kinds, and then the rows before and after fit it
too.
-/

namespace RecordFlow

/-! ### Kinds of columns -/

/-- The value can stand in a column of the kind: it is NULL or of that kind, or the column is one of
all kinds. -/
def Value.Fits (v : Value) (kind : LogicalType) : Prop :=
  kind ≠ .other → v = .null ∨ v.logicalType = kind

theorem Value.fits_of_logicalType {v : Value} {kind : LogicalType} (h : v.logicalType = kind) :
    v.Fits kind :=
  fun _ => .inr h

theorem Value.fits_null (kind : LogicalType) : Value.null.Fits kind :=
  fun _ => .inl rfl

theorem Value.fits_other (v : Value) : v.Fits .other :=
  fun h => absurd rfl h

theorem logicalType_of_numberOfText? {cs : List Char} {v : Value} (h : numberOfText? cs = some v) :
    v.logicalType = .numeric := by
  rw [numberOfText?] at h
  split at h
  · split at h
    · cases h
      rfl
    · obtain ⟨x, -, rfl⟩ := Option.map_eq_some_iff.1 h
      rfl
  · cases h

theorem logicalType_of_boolOfText? {s : String} {v : Value} (h : boolOfText? s = some v) :
    v.logicalType = .boolean := by
  rw [boolOfText?] at h
  split at h
  · cases h
    rfl
  · split at h
    · cases h
      rfl
    · cases h

/-- A value that goes into a column fits it. -/
theorem Value.fits_of_coerce {v c : Value} {kind : LogicalType} (h : v.coerce kind = some c) :
    c.Fits kind := by
  fun_cases coerce v kind with
  | case1 => cases h; exact fits_null _
  | case2 => exact fits_other c
  | case3 | case4 | case6 | case7 | case9 | case11 => cases h; exact fits_of_logicalType rfl
  | case5 => exact fits_of_logicalType (logicalType_of_numberOfText? h)
  | case8 => exact fits_of_logicalType (logicalType_of_boolOfText? h)
  | case10 =>
    obtain ⟨t, -, rfl⟩ := Option.map_eq_some_iff.1 h
    exact fits_of_logicalType rfl
  | case12 =>
    rw [coerce] at h
    · cases h
    all_goals assumption

/-- A value that can stand in a column goes in as it is. -/
theorem Value.coerce_of_fits {v : Value} {kind : LogicalType} (h : v.Fits kind) :
    v.coerce kind = some v := by
  by_cases hother : kind = .other
  · subst hother
    cases v <;> rfl
  rcases h hother with rfl | rfl
  · cases kind <;> rfl
  · cases v <;> rfl

namespace Relation

/-- What holds of a relation at any time. -/
structure WellFormed (r : Relation) : Prop where
  shape : r.WellShaped
  /-- Every value fits its column. -/
  fits : ∀ {p : Nat} {name : String} {d : AttributeDomain}, r.schema[p]? = some (name, d) →
    ∀ v ∈ r.valuesAt p, v.Fits d.kind
  /-- Statistics are those of the column as it is. -/
  described : ∀ {p : Nat} {name : String} {d : AttributeDomain}, r.schema[p]? = some (name, d) →
    d.hasStatistics → d.Describes (r.valuesAt p)

/-! ### Fitting -/

theorem fitValue_fits (d : AttributeDomain) (v : Value) :
    (fitValue d v).2.Fits (fitValue d v).1.kind := by
  rw [fitValue]
  split
  · rename_i h
    exact Value.fits_of_coerce h
  · exact v.fits_other

theorem fitValue_of_fits {d : AttributeDomain} {v : Value} (h : v.Fits d.kind) :
    fitValue d v = (d, v) := by
  rw [fitValue, Value.coerce_of_fits h]

/-- A domain stays, or it becomes one of all kinds. -/
def Widened (d d' : AttributeDomain) : Prop :=
  d' = d ∨ d' = { d with kind := .other }

theorem widened_fitValue (d : AttributeDomain) (v : Value) : Widened d (fitValue d v).1 := by
  rw [fitValue]
  split
  · exact .inl rfl
  · exact .inr rfl

theorem Widened.trans {d d' d'' : AttributeDomain} (h : Widened d d') (h' : Widened d' d'') :
    Widened d d'' := by
  rcases h with rfl | rfl <;> rcases h' with rfl | rfl
  · exact .inl rfl
  · exact .inr rfl
  · exact .inr rfl
  · exact .inr rfl

theorem Widened.fits {d d' : AttributeDomain} (h : Widened d d') {v : Value}
    (hv : v.Fits d.kind) : v.Fits d'.kind := by
  rcases h with rfl | rfl
  · exact hv
  · exact v.fits_other

/-! ### Records as rows -/

theorem fitRecord_eq (schema : Schema) (record : Record) : fitRecord schema record =
    (schema.map fun entry => (entry.1, (fitValue entry.2 (record.value entry.1)).1),
      schema.map fun entry => (fitValue entry.2 (record.value entry.1)).2) := rfl

theorem fitRecord_congr {schema : Schema} {r s : Record}
    (h : ∀ entry ∈ schema,
      fitValue entry.2 (r.value entry.1) = fitValue entry.2 (s.value entry.1)) :
    fitRecord schema r = fitRecord schema s := by
  rw [fitRecord_eq, fitRecord_eq]
  refine Prod.ext (List.map_congr_left fun entry hentry => ?_)
    (List.map_congr_left fun entry hentry => ?_)
  · exact congrArg (fun fit => (entry.1, fit.1)) (h entry hentry)
  · exact congrArg Prod.snd (h entry hentry)

theorem fitRecord_getElem? {schema : Schema} {p : Nat} {name : String} {d : AttributeDomain}
    (h : schema[p]? = some (name, d)) (record : Record) :
    (fitRecord schema record).1[p]? = some (name, (fitValue d (record.value name)).1) ∧
    (fitRecord schema record).2[p]? = some (fitValue d (record.value name)).2 := by
  simp [fitRecord, h]

theorem names_fitRecord (schema : Schema) (record : Record) :
    (fitRecord schema record).1.names = schema.names := by
  simp [fitRecord, Attributes.names]

theorem fitRecords_cons (schema : Schema) (record : Record) (rest : List Record) :
    fitRecords schema (record :: rest) =
      ((fitRecords (fitRecord schema record).1 rest).1,
        (fitRecord schema record).2 :: (fitRecords (fitRecord schema record).1 rest).2) := rfl

theorem names_fitRecords (schema : Schema) (records : List Record) :
    (fitRecords schema records).1.names = schema.names := by
  induction records generalizing schema with
  | nil => rfl
  | cons record rest ih => exact (ih _).trans (names_fitRecord schema record)

theorem length_fitRecords (schema : Schema) (records : List Record) :
    (fitRecords schema records).1.length = schema.length := by
  have hnames := congrArg List.length (names_fitRecords schema records)
  rwa [Attributes.names, Attributes.names, List.length_map, List.length_map] at hnames

/-- Fitting records to a schema only widens its domains. -/
theorem widened_fitRecords {schema : Schema} {p : Nat} {name : String} {d : AttributeDomain}
    (h : schema[p]? = some (name, d)) (records : List Record) :
    ∃ d', (fitRecords schema records).1[p]? = some (name, d') ∧ Widened d d' := by
  induction records generalizing schema d with
  | nil => exact ⟨d, h, .inl rfl⟩
  | cons record rest ih =>
    obtain ⟨d', hd', hwide⟩ := ih (fitRecord_getElem? h record).1
    exact ⟨d', hd', (widened_fitValue d _).trans hwide⟩

theorem mem_fitRecords_cons {schema : Schema} {record : Record} {rest : List Record} {row : Tuple} :
    row ∈ (fitRecords schema (record :: rest)).2 ↔
      row = (fitRecord schema record).2 ∨
        row ∈ (fitRecords (fitRecord schema record).1 rest).2 :=
  List.mem_cons

theorem length_of_mem_fitRecords {schema : Schema} {records : List Record} {row : Tuple}
    (h : row ∈ (fitRecords schema records).2) : row.length = schema.length := by
  induction records generalizing schema with
  | nil => cases h
  | cons record rest ih =>
    rcases mem_fitRecords_cons.1 h with rfl | h
    · exact List.length_map _
    · exact (ih h).trans (List.length_map _)

/-- Every value fits its column as it is in the end: the column may only have been widened since the
value went in. -/
theorem fits_of_mem_fitRecords {schema : Schema} {p : Nat} {name : String} {d : AttributeDomain}
    (h : schema[p]? = some (name, d)) {records : List Record} {d' : AttributeDomain}
    (hd' : (fitRecords schema records).1[p]? = some (name, d')) {row : Tuple}
    (hrow : row ∈ (fitRecords schema records).2) : (row[p]?.getD .null).Fits d'.kind := by
  induction records generalizing schema d with
  | nil => cases hrow
  | cons record rest ih =>
    obtain ⟨hdomain, hvalue⟩ := fitRecord_getElem? h record
    rcases mem_fitRecords_cons.1 hrow with rfl | hrow
    · obtain ⟨d'', hd'', hwide⟩ := widened_fitRecords hdomain rest
      obtain rfl : d'' = d' := (Prod.mk.inj (Option.some.inj (hd''.symm.trans hd'))).2
      rw [hvalue]
      exact hwide.fits (fitValue_fits d _)
    · exact ih hdomain hd' hrow

theorem names_suggestedSchema (record : Record) :
    (suggestedSchema record).names = Attributes.names record := by
  simp [suggestedSchema, Attributes.names]

theorem hasStatistics_of_suggestedSchema {record : Record} {p : Nat} {name : String}
    {d : AttributeDomain} (h : (suggestedSchema record)[p]? = some (name, d)) :
    d.hasStatistics = false := by
  rw [suggestedSchema, List.getElem?_map] at h
  obtain ⟨⟨name', v⟩, -, heq⟩ := Option.map_eq_some_iff.1 h
  cases heq
  rfl

theorem Widened.hasStatistics {d d' : AttributeDomain} (h : Widened d d') :
    d'.hasStatistics = d.hasStatistics := by
  rcases h with rfl | rfl <;> rfl

/-- A domain in the end is a domain of the schema, perhaps widened. -/
theorem exists_of_fitRecords_getElem? {schema : Schema} {records : List Record} {p : Nat}
    {name : String} {d' : AttributeDomain}
    (h : (fitRecords schema records).1[p]? = some (name, d')) :
    ∃ d, schema[p]? = some (name, d) ∧ Widened d d' := by
  have hlt := (List.getElem?_eq_some_iff.1 h).1
  rw [length_fitRecords] at hlt
  obtain ⟨d'', hd'', hwide⟩ := widened_fitRecords (List.getElem?_eq_getElem hlt) records
  obtain ⟨rfl, rfl⟩ := Prod.mk.inj (Option.some.inj (hd''.symm.trans h))
  exact ⟨_, List.getElem?_eq_getElem hlt, hwide⟩

/-- Records that are fitted to a schema without statistics make a well-formed relation. -/
theorem wellFormed_of_fitRecords {r : Relation} (schema : Schema) (records : List Record)
    (hnames : schema.names.Nodup)
    (hclear : ∀ {p : Nat} {name : String} {d : AttributeDomain}, schema[p]? = some (name, d) →
      d.hasStatistics = false)
    (hr : (r.schema, r.rows) = fitRecords schema records) : r.WellFormed := by
  obtain ⟨hschema, hrows⟩ := Prod.mk.inj hr
  refine ⟨⟨?_, ?_⟩, ?_, ?_⟩
  · rwa [hschema, names_fitRecords]
  · intro row hrow
    rw [hrows] at hrow
    rw [hschema, length_fitRecords]
    exact length_of_mem_fitRecords hrow
  · intro p name d hget v hv
    obtain ⟨row, hrow, rfl⟩ := List.mem_map.1 hv
    rw [hschema] at hget
    rw [hrows] at hrow
    obtain ⟨d₀, hd₀, -⟩ := exists_of_fitRecords_getElem? hget
    exact fits_of_mem_fitRecords hd₀ hget hrow
  · intro p name d hget hstatistics
    rw [hschema] at hget
    obtain ⟨d₀, hd₀, hwide⟩ := exists_of_fitRecords_getElem? hget
    rw [hwide.hasStatistics, hclear hd₀] at hstatistics
    cases hstatistics

theorem ofRecords_of_head? {records : List Record} {first : Record}
    (h : records.head? = some first) : ofRecords records =
    ⟨none, (fitRecords (suggestedSchema first) records).1,
      (fitRecords (suggestedSchema first) records).2, true⟩ := by
  rw [ofRecords, h, Option.elim_some]

/-- A relation of records is well formed. -/
theorem wellFormed_ofRecords (records : List NamedRecord) :
    (ofRecords (records.map (·.val))).WellFormed := by
  cases records with
  | nil => exact wellFormed_of_fitRecords [] [] List.nodup_nil (fun hget => (by cases hget)) rfl
  | cons first rest =>
    refine wellFormed_of_fitRecords (suggestedSchema first.val)
      ((first :: rest).map (·.val)) ?_ hasStatistics_of_suggestedSchema rfl
    rw [names_suggestedSchema]
    exact first.property

/-! ### Records of rows -/

/-- A record of distinct names has, under the name of one of its fields, the value of that field. -/
theorem value_of_mem {record : Record} (hnames : (Attributes.names record).Nodup) {name : String}
    {v : Value} (h : (name, v) ∈ record) : Record.value record name = v := by
  rw [Record.value, Attributes.get?_of_mem hnames h]
  rfl

end Relation

end RecordFlow
