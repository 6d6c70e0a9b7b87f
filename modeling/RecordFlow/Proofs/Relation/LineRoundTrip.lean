import RecordFlow.Proofs.Relation.Exchange
import RecordFlow.Proofs.Relation.WellFormed
import RecordFlow.Proofs.Value.Equality

/-!
# Relations come back from their lines

No operation makes a value: all values in the rows of a derived relation are those of the records,
what a column has made of them, or NULL (`Relation.Derived.forall_values`). Statistics are values
and counts of the rows as they are (`Relation.WellFormed.exists_row_of_bound`,
`Relation.WellFormed.statistics_le`). So whatever operations make of the relation of some records
can be written as lines, and is read from them again (`Relation.deserialize_serialize`).
-/

namespace RecordFlow

/-! ### Values of a record -/

namespace Value

theorem wellFormed_of_logicalType {v : Value} {kind : LogicalType} (h : v.logicalType = kind)
    (hlist : kind ≠ .list) (hother : kind ≠ .other) : v.WellFormed := by
  cases v with
  | list elements => exact absurd h.symm hlist
  | struct fields => exact absurd h.symm hother
  | _ => trivial

/-- What a column makes of a text has no parts. -/
theorem wellFormed_of_coerce {v c : Value} {kind : LogicalType} (h : v.coerce kind = some c)
    (hv : v.WellFormed) : c.WellFormed := by
  fun_cases coerce v kind with
  | case1 | case3 | case4 | case6 | case7 | case9 => cases h; trivial
  | case2 => cases v <;> cases h <;> exact hv
  | case11 => cases h; exact hv
  | case5 =>
    exact wellFormed_of_logicalType (logicalType_of_numberOfText? h) (by decide) (by decide)
  | case8 => exact wellFormed_of_logicalType (logicalType_of_boolOfText? h) (by decide) (by decide)
  | case10 =>
    obtain ⟨t, -, rfl⟩ := Option.map_eq_some_iff.1 h
    trivial
  | case12 =>
    rw [coerce] at h
    · cases h
    all_goals assumption

end Value

namespace Relation

variable {records : List Record} {r : Relation}

section Values

variable {P : Value → Prop}

theorem forall_mem_fitRecord (hnull : P .null)
    (hcoerce : ∀ {v c kind}, P v → Value.coerce v kind = some c → P c) {record : Record}
    (h : ∀ field ∈ record, P field.2) (schema : Schema) :
    ∀ v ∈ (fitRecord schema record).2, P v := by
  have hvalue : ∀ name, P (record.value name) := by
    intro name
    rw [Record.value]
    cases hget : record.get? name with
    | none => exact hnull
    | some v => exact h _ (Attributes.mem_of_get?_eq_some hget)
  intro v hv
  obtain ⟨⟨name, d⟩, -, rfl⟩ := List.mem_map.1 hv
  show P (fitValue d (record.value name)).2
  rw [fitValue]
  split
  · next hcoerced => exact hcoerce (hvalue name) hcoerced
  · exact hvalue name

theorem forall_mem_fitRecords (hnull : P .null)
    (hcoerce : ∀ {v c kind}, P v → Value.coerce v kind = some c → P c) {records : List Record}
    (h : ∀ record ∈ records, ∀ field ∈ record, P field.2) (schema : Schema) :
    ∀ row ∈ (fitRecords schema records).2, ∀ v ∈ row, P v := by
  induction records generalizing schema with
  | nil => exact fun row hrow => (by cases hrow)
  | cons record rest ih =>
    intro row hrow
    rcases mem_fitRecords_cons.1 hrow with rfl | hrow
    · exact forall_mem_fitRecord hnull hcoerce (h record List.mem_cons_self) schema
    · exact ih (fun record hrecord => h record (List.mem_cons_of_mem _ hrecord)) _ row hrow

/-- What holds of NULL, of the values of some records and of what columns make of them holds of
every value in the relations that operations make of these records. -/
theorem Derived.forall_values (hnull : P .null)
    (hcoerce : ∀ {v c kind}, P v → Value.coerce v kind = some c → P c)
    (hrecords : ∀ record ∈ records, ∀ field ∈ record, P field.2) (h : Derived records r) :
    ∀ row ∈ r.rows, ∀ v ∈ row, P v := by
  induction h with
  | ofRecords => exact forall_mem_fitRecords hnull hcoerce hrecords _
  | select f _ hs ih =>
    obtain ⟨placed, rfl⟩ := select_eq_ok hs
    exact fun row hrow => ih row (List.mem_filter.1 hrow).1
  | @project r columns _ ih =>
    intro row hrow v hv
    obtain ⟨source, hsource, rfl⟩ := List.mem_map.1 hrow
    obtain ⟨p, -, rfl⟩ := List.mem_map.1 hv
    cases hp : source[p]? with
    | none => exact hnull
    | some v => exact ih source hsource v (List.mem_of_getElem? hp)
  | distinct _ ih => exact fun row hrow => ih row (mem_of_mem_firstsBy hrow)
  | sample fraction draws _ hs ih =>
    obtain ⟨rate, rfl⟩ := sample_eq_ok hs
    exact fun row hrow => ih row (mem_of_mem_sample hrow)
  | rename source target _ hs ih =>
    obtain rfl | ⟨-, rfl⟩ := rename_eq_ok hs
    · exact ih
    · exact ih
  | withName name _ ih => exact ih
  | materialize _ ih => exact ih
  | profile _ ih => exact ih
  | group columns _ hg hs ih =>
    obtain ⟨group, -, heq⟩ := List.mem_map.1 hs
    cases heq
    exact fun row hrow => ih row (mem_rows_of_groupBy hg hrow)

end Values

/-! ### Statistics -/

theorem mem_of_isBound {α : Type} {cmp : α → α → Ordering} {bound : Option α} {as : List α}
    (h : IsBound cmp bound as) {a : α} (ha : a ∈ bound) : a ∈ as := by
  obtain rfl := Option.mem_def.1 ha
  obtain ⟨before, after, rfl, -, -⟩ := h
  exact List.mem_append_right before List.mem_cons_self

/-- The least and the greatest value of an attribute stand in some row. -/
theorem WellFormed.exists_row_of_bound (h : r.WellFormed) {entry : String × AttributeDomain}
    (hentry : entry ∈ r.schema) {v : Value} (hv : v ∈ entry.2.min ∨ v ∈ entry.2.max) :
    ∃ row ∈ r.rows, v ∈ row := by
  obtain ⟨p, hp⟩ := List.getElem?_of_mem hentry
  have hstatistics : entry.2.hasStatistics := by
    rcases hv with hv | hv <;> simp [AttributeDomain.hasStatistics, Option.mem_def.1 hv]
  have hdescribed := h.described hp hstatistics
  have hpresent : v ∈ Aggregate.present (r.valuesAt p) := by
    rcases hv with hv | hv
    · exact mem_of_isBound hdescribed.min hv
    · exact mem_of_isBound hdescribed.max hv
  obtain ⟨row, hrow, hvalue⟩ := List.mem_map.1 (List.mem_filter.1 hpresent).1
  have hlt : p < row.length := by
    rw [h.shape.2 row hrow]
    exact (List.getElem?_eq_some_iff.1 hp).1
  rw [List.getElem?_eq_getElem hlt, Option.getD_some] at hvalue
  exact ⟨row, hrow, hvalue ▸ List.getElem_mem hlt⟩

/-- No attribute has more values, or more different ones, than there are rows. -/
theorem WellFormed.statistics_le (h : r.WellFormed) {entry : String × AttributeDomain}
    (hentry : entry ∈ r.schema) {n : Nat} (hn : n ∈ entry.2.count ∨ n ∈ entry.2.unique) :
    n ≤ r.rows.length := by
  obtain ⟨p, hp⟩ := List.getElem?_of_mem hentry
  have hstatistics : entry.2.hasStatistics := by
    rcases hn with hn | hn <;> simp [AttributeDomain.hasStatistics, Option.mem_def.1 hn]
  have hdescribed := h.described hp hstatistics
  have hpresent : (Aggregate.present (r.valuesAt p)).length ≤ r.rows.length :=
    (List.length_filter_le _ _).trans_eq (List.length_map _)
  rcases hn with hn | hn
  · rw [hdescribed.count] at hn
    exact Option.some.inj hn ▸ hpresent
  · rw [hdescribed.unique] at hn
    refine (Option.some.inj hn ▸ (sublist_eraseDups _).length_le).trans ?_
    rwa [List.length_map]

/-- A well-formed relation of well-formed values, with as many rows as a machine can count, has a
schema that can be stored. -/
theorem WellFormed.storable (h : r.WellFormed)
    (hvalues : ∀ row ∈ r.rows, ∀ v ∈ row, v.WellFormed) (hlength : r.rows.length < 2 ^ 64) :
    ∀ entry ∈ r.schema, entry.2.Storable := by
  intro entry hentry
  have hbound : ∀ v, v ∈ entry.2.min ∨ v ∈ entry.2.max → v.WellFormed := by
    intro v hv
    obtain ⟨row, hrow, hmem⟩ := h.exists_row_of_bound hentry hv
    exact hvalues row hrow v hmem
  exact {
    min := fun v hv => hbound v (.inl hv)
    max := fun v hv => hbound v (.inr hv)
    count := fun n hn => (h.statistics_le hentry (.inl hn)).trans_lt hlength
    unique := fun n hn => (h.statistics_le hentry (.inr hn)).trans_lt hlength }

/-! ### Both ways -/

theorem wellFormed_recordOf (h : r.WellShaped) {row : Tuple} (hrow : row ∈ r.rows)
    (hvalues : ∀ v ∈ row, v.WellFormed) : (Value.struct (r.recordOf row)).WellFormed := by
  refine ⟨?_, Value.fieldsWellFormed_iff.2 fun field hfield => ?_⟩
  · have hlength : r.schema.names.length ≤ row.length := by
      rw [h.2 row hrow, Attributes.names, List.length_map]
    show ((r.schema.names.zip row).map Prod.fst).Nodup
    rw [List.map_fst_zip hlength]
    exact h.1
  · exact hvalues field.2 (List.of_mem_zip hfield).2

theorem Derived.wellFormed_of_proper {records : List ProperRecord}
    (h : Derived (records.map (·.val)) r) : r.WellFormed := by
  have hnamed : (records.map ProperRecord.named).map (·.val) = records.map (·.val) := List.map_map
  exact (hnamed ▸ h).wellFormed

/-- Whatever operations make of the relation of some records can be written as lines that can be
read. -/
theorem Derived.writable {records : List ProperRecord} (h : Derived (records.map (·.val)) r)
    (hlength : r.rows.length < 2 ^ 64) (hschema : r.schema.toStored.depth ≤ Json.maxDepth)
    (hdepth : ∀ record ∈ r.records, record.toStored.depth ≤ Json.maxDepth) : r.Writable := by
  have hwell := h.wellFormed_of_proper
  have hfields : ∀ record ∈ records.map (·.val), ∀ field ∈ record, field.2.WellFormed :=
    List.forall_mem_map.2 fun record _ => Value.fieldsWellFormed_iff.1 record.property.2
  have hvalues : ∀ row ∈ r.rows, ∀ v ∈ row, v.WellFormed :=
    h.forall_values trivial (fun hv hcoerce => Value.wellFormed_of_coerce hcoerce hv) hfields
  refine ⟨hwell.shape, hwell.storable hvalues hlength, hschema, fun record hrecord => ?_⟩
  rw [← Record.depth_toStored]
  refine ⟨?_, hdepth record hrecord⟩
  obtain ⟨row, hrow, rfl⟩ := List.mem_map.1 hrecord
  exact wellFormed_recordOf hwell.shape hrow (hvalues row hrow)

end Relation

/-- The domain with an empty payload in every NaN of its statistics. -/
def AttributeDomain.quiet (d : AttributeDomain) : AttributeDomain :=
  { d with min := d.min.map Value.quiet, max := d.max.map Value.quiet }

/-- The schema with an empty payload in every NaN of its statistics. -/
def Schema.quiet (s : Schema) : Schema :=
  s.map fun (name, d) => (name, d.quiet)

namespace Relation

variable {r : Relation}

/-- Statistics are read back with the values of the rows. -/
theorem WellFormed.schema_reread (h : r.WellFormed)
    (hread : ∀ row ∈ r.rows, ∀ v ∈ row, v.reread = v.quiet) :
    r.schema.reread = r.schema.quiet := by
  refine List.map_congr_left fun entry hentry => congrArg (Prod.mk entry.1) ?_
  have hbound : ∀ v, v ∈ entry.2.min ∨ v ∈ entry.2.max → v.reread = v.quiet := by
    intro v hv
    obtain ⟨row, hrow, hmem⟩ := h.exists_row_of_bound hentry hv
    exact hread row hrow v hmem
  rw [AttributeDomain.reread, AttributeDomain.quiet,
    Option.map_congr fun v hv => hbound v (.inl hv),
    Option.map_congr fun v hv => hbound v (.inr hv)]

/-- A relation that can be written is written through the codec of lines and read again. -/
theorem deserialize_write (h : r.Writable) {registry : CodecRegistry}
    (hcodec : registry.find "jsonl" = .ok JsonLines.codec) :
    r.serialize registry "jsonl" = .ok (JsonLines.write r) ∧
      deserialize registry "jsonl" (JsonLines.write r) = .ok r.reread := by
  have hread := JsonLines.read_write h
  constructor
  · rw [serialize, hcodec]
    rfl
  · rw [deserialize, hcodec]
    exact hread

/-- Whatever operations make of the relation of some records comes back from its lines: with the
same attributes in the same order, each of the same kind and with the same counts, and with every
value as its stored form is read. No line may nest deeper than the reader of JSON goes, the finite
numbers have to be found again by it, and there are as many rows as a machine can count. Where no
timestamp is in a leap second inside a minute, the values in the rows and in the statistics are the
same, NaN up to its payload. -/
theorem deserialize_serialize {records : List ProperRecord} (h : Derived (records.map (·.val)) r)
    (hlength : r.rows.length < 2 ^ 64)
    (hschema : r.schema.toStored.depth ≤ Json.maxDepth)
    (hdepth : ∀ record ∈ r.records, record.toStored.depth ≤ Json.maxDepth)
    (hfloats : ∀ row ∈ r.rows, ∀ v ∈ row, v.FloatsReadBack)
    {registry : CodecRegistry} (hcodec : registry.find "jsonl" = .ok JsonLines.codec) :
    ∃ text s, r.serialize registry "jsonl" = .ok text ∧
      deserialize registry "jsonl" text = .ok s ∧
      s.schema = r.schema.reread ∧ (s.rows = r.rows.map fun row => row.map Value.reread) ∧
      ((∀ row ∈ r.rows, ∀ v ∈ row, v.hasInnerLeap = false) →
        s.schema = r.schema.quiet ∧ s.rows = r.rows.map fun row => row.map Value.quiet) := by
  obtain ⟨hwritten, hread⟩ := deserialize_write (h.writable hlength hschema hdepth) hcodec
  refine ⟨JsonLines.write r, r.reread, hwritten, hread, rfl, rfl, fun hleaps => ?_⟩
  have hsame : ∀ row ∈ r.rows, ∀ v ∈ row, v.reread = v.quiet := fun row hrow v hv =>
    (v.reread_eq_quiet_iff (hfloats row hrow v hv)).2 (hleaps row hrow v hv)
  exact ⟨h.wellFormed_of_proper.schema_reread hsame,
    List.map_congr_left fun row hrow => List.map_congr_left (hsame row hrow)⟩

/-- Two records with line breaks in a name and in a text, a NaN with a payload and a list. -/
def brokenRecords : List Record :=
  [[("a\n\"b", .text "x\ny"), ("f", .float ⟨0x7FF0000000000001⟩), ("l", .list [.int 1])],
    [("f", .float ⟨0x3FF8000000000000⟩), ("l", .null)]]

/-- A profile comes back with its statistics, and records without attributes come back as so many
empty rows. -/
theorem deserialize_serialize_brokenRecords :
    (∃ text s, (ofRecords brokenRecords).profile.serialize .builtIn "jsonl" = .ok text ∧
      deserialize .builtIn "jsonl" text = .ok s ∧
      (s.schema.map fun (name, d) => (name, d.kind, d.count, d.nullable)) =
        [("a\n\"b", .string, some 1, some true), ("f", .numeric, some 2, some false),
          ("l", .list, some 1, some true)] ∧
      s.rows = [[.text "x\ny", .float (.nan false), .list [.int 1]],
        [.null, .float ⟨0x3FF8000000000000⟩, .null]]) ∧
    ∃ text s, (ofRecords [[], []]).profile.serialize .builtIn "jsonl" = .ok text ∧
      deserialize .builtIn "jsonl" text = .ok s ∧ s.schema = [] ∧ s.rows = [[], []] := by
  have hproper : ∀ record ∈ brokenRecords, (Value.struct record).WellFormed := by decide
  have hbroken : Derived ((brokenRecords.attachWith _ hproper).map (·.val))
      (ofRecords brokenRecords).profile := .profile .ofRecords
  let empty : ProperRecord := ⟨[], by decide⟩
  have hempty : Derived ([empty, empty].map (·.val)) (ofRecords [[], []]).profile :=
    .profile .ofRecords
  have hcodec : CodecRegistry.builtIn.find "jsonl" = .ok JsonLines.codec := rfl
  refine ⟨?_, ?_⟩
  · obtain ⟨text, s, htext, hs, -, -, hsame⟩ := deserialize_serialize hbroken
      (by decide) (by decide) (by decide) (by decide +kernel) hcodec
    obtain ⟨hschema, hrows⟩ := hsame (by decide)
    exact ⟨text, s, htext, hs, hschema ▸ (by decide), hrows.trans (by rfl)⟩
  · obtain ⟨text, s, htext, hs, hschema, hrows, -⟩ := deserialize_serialize hempty (by decide)
      (by decide) (by decide) (by decide) hcodec
    exact ⟨text, s, htext, hs, hschema, hrows⟩

/-- A timestamp in a leap second inside a minute does not come back from the lines of a relation. -/
theorem deserialize_serialize_not_of_innerLeap :
    ∃ text s, (ofRecords [[("t", .timestamp .innerLeap)]]).serialize .builtIn "jsonl" = .ok text ∧
      deserialize .builtIn "jsonl" text = .ok s ∧
      s.rows = [[.timestamp .behindInnerLeap]] ∧ Timestamp.behindInnerLeap ≠ .innerLeap := by
  let record : ProperRecord := ⟨[("t", .timestamp .innerLeap)], by decide⟩
  have hderived : Derived ([record].map (·.val)) (ofRecords [[("t", .timestamp .innerLeap)]]) :=
    .ofRecords
  have hwritable := hderived.writable (by decide) (by decide) (by decide)
  have hcodec : CodecRegistry.builtIn.find "jsonl" = .ok JsonLines.codec := rfl
  obtain ⟨hwritten, hread⟩ := deserialize_write hwritable hcodec
  have hvalue : Value.reread (.timestamp .innerLeap) = .timestamp .behindInnerLeap := by
    rw [Value.reread, Timestamp.reread_innerLeap]
  exact ⟨_, _, hwritten, hread, by rw [← hvalue]; rfl, by decide⟩

end Relation

end RecordFlow
