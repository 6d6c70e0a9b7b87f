import RecordFlow.Proofs.Relation.Projection
import RecordFlow.Proofs.Relation.Reingestion

/-!
# Columns chosen before or after the rows are made

Whether a value fits its column, and how the column is widened, depends on the values of that column
alone, so fitting records to some columns of a schema gives those columns of the fitted rows
(`Relation.fitRecords_places`). The first record suggests for its chosen attributes what it suggests
for them among all, and a relation of records that have been restricted to some attributes of the
first one is the projection of the relation of all (`Relation.toRelation_select`).
-/

namespace RecordFlow

/-! ### Records restricted to some attributes -/

namespace Attributes

variable {α : Type}

theorem get?_map_pair (entry : String → α) (names : List String) (name : String) :
    get? (names.map fun n => (n, entry n)) name =
      if name ∈ names then some (entry name) else none := by
  induction names with
  | nil => rfl
  | cons n names ih =>
    rw [List.map_cons, get?_cons, ih]
    by_cases h : name = n <;> simp [h]

/-- The entry of a name, put where every name has its own entry, is there already or comes last. -/
theorem put_map_pair (entry : String → α) (names : List String) (name : String) :
    put (names.map fun n => (n, entry n)) name (entry name) =
      (if name ∈ names then names else names ++ [name]).map fun n => (n, entry n) := by
  induction names with
  | nil => rfl
  | cons n names ih =>
    rw [List.map_cons, put]
    by_cases h : n = name
    · simp [h]
    · have hne : name ≠ n := Ne.symm h
      by_cases hmem : name ∈ names <;> simp [h, hne, hmem, ih]

/-- Names put one after the other, each with its own entry, are there once. -/
theorem ofPairs_map_pair (entry : String → α) (names : List String) :
    ofPairs (names.map fun n => (n, entry n)) = names.eraseDups.map fun n => (n, entry n) := by
  have hfold : ∀ present : List String,
      (names.map fun n => (n, entry n)).foldl (fun as named => put as named.1 named.2)
        (present.eraseDups.map fun n => (n, entry n)) =
      (present ++ names).eraseDups.map fun n => (n, entry n) := by
    induction names with
    | nil =>
      intro present
      rw [List.append_nil]
      rfl
    | cons name names ih =>
      intro present
      have hput : put (present.eraseDups.map fun n => (n, entry n)) name (entry name) =
          (present ++ [name]).eraseDups.map fun n => (n, entry n) := by
        rw [put_map_pair, eraseDups_concat]
        simp only [List.mem_eraseDups]
      have hrest := ih (present ++ [name])
      rw [List.append_assoc, ← hput] at hrest
      exact hrest
  exact hfold []

/-- What stands at the position of a name is the name with its entry. -/
theorem bind_position? (as : Attributes α) (name : String) :
    (as.position? name).bind (as[·]?) = (as.get? name).map fun a => (name, a) := by
  induction as with
  | nil => rfl
  | cons entry as ih =>
    rw [position?_cons, get?_cons]
    by_cases h : name = entry.1
    · simp [h]
    · simpa [h, Option.bind_map, Function.comp_def] using ih

theorem get?_map_entry {β : Type} (as : Attributes α) (f : α → β) (name : String) :
    get? (as.map fun (n, a) => (n, f a)) name = (as.get? name).map f := by
  induction as with
  | nil => rfl
  | cons entry as ih =>
    rw [List.map_cons, get?_cons, get?_cons, ih]
    by_cases h : name = entry.1 <;> simp [h]

end Attributes

namespace Record

theorem project_eq (r : Record) (columns : List String) :
    r.project columns = columns.eraseDups.map fun name => (name, r.value name) :=
  Attributes.ofPairs_map_pair r.value columns

theorem value_project {r : Record} {columns : List String} {name : String} (h : name ∈ columns) :
    (r.project columns).value name = r.value name := by
  rw [value, project_eq, Attributes.get?_map_pair, if_pos (List.mem_eraseDups.2 h),
    Option.getD_some]

end Record

namespace Relation

variable {schema : Schema} {places : List Nat} {columns : List String}

/-- A record suggests for some of its attributes what it suggests for them among all. -/
theorem suggestedSchema_project {first : Record}
    (h : ∀ name ∈ columns, name ∈ Attributes.names first) :
    suggestedSchema (first.project columns) =
      (columns.eraseDups.filterMap (suggestedSchema first).position?).filterMap
        ((suggestedSchema first)[·]?) := by
  have hentry : ∀ name ∈ columns.eraseDups,
      ((suggestedSchema first).position? name).bind ((suggestedSchema first)[·]?) =
        some (name, { kind := (first.value name).logicalType }) := by
    intro name hname
    have hentry : (suggestedSchema first).get? name =
        (first.get? name).map fun v => { kind := v.logicalType } :=
      Attributes.get?_map_entry first (fun v => ({ kind := v.logicalType } : AttributeDomain)) name
    rw [Attributes.bind_position?, hentry, Record.value]
    cases hget : first.get? name with
    | none =>
      have hmissing : first.has name = false := by rw [Attributes.has, hget]; rfl
      exact absurd (h name (List.mem_eraseDups.1 hname)) (not_mem_names_of_not_has hmissing)
    | some v => rfl
  rw [List.filterMap_filterMap, List.filterMap_congr hentry, List.filterMap_eq_map',
    suggestedSchema, Record.project_eq, List.map_map]
  rfl

/-! ### Fitting some columns -/

theorem filterMap_getElem?_eq_map {α : Type} {as : List α} (h : ∀ p ∈ places, p < as.length)
    (default : α) : places.filterMap (as[·]?) = places.map fun p => as[p]?.getD default := by
  rw [← List.filterMap_eq_map']
  refine List.filterMap_congr fun p hp => ?_
  rw [List.getElem?_eq_getElem (h p hp), Option.getD_some]

/-- The names at some places of a schema. -/
theorem names_filterMap_getElem? (schema : Schema) (places : List Nat) :
    Attributes.names (places.filterMap (schema[·]?)) = places.filterMap (schema.names[·]?) :=
  (filterMap_getElem?_map schema _ places).symm

/-- A record that has the values of another one under the names at some places of a schema is fitted
to these columns as the other is fitted to all. -/
theorem fitRecord_places {record record' : Record}
    (hsame : ∀ name ∈ places.filterMap (schema.names[·]?), record'.value name = record.value name) :
    fitRecord (places.filterMap (schema[·]?)) record' =
      (places.filterMap ((fitRecord schema record).1[·]?),
        places.filterMap ((fitRecord schema record).2[·]?)) := by
  have hfit : ∀ entry ∈ places.filterMap (schema[·]?),
      fitValue entry.2 (record'.value entry.1) = fitValue entry.2 (record.value entry.1) := by
    intro entry hentry
    rw [hsame entry.1]
    rw [← names_filterMap_getElem?]
    exact List.mem_map_of_mem hentry
  rw [fitRecord_congr hfit, fitRecord_eq, fitRecord_eq, filterMap_getElem?_map,
    filterMap_getElem?_map]

/-- Columns are fitted independently: records that have the values of others under the names at
some places of a schema make the columns at these places of the rows that the others make. -/
theorem fitRecords_places (restrict : Record → Record) (hlt : ∀ p ∈ places, p < schema.length)
    (hsame : ∀ record : Record, ∀ name ∈ places.filterMap (schema.names[·]?),
      (restrict record).value name = record.value name) (records : List Record) :
    fitRecords (places.filterMap (schema[·]?)) (records.map restrict) =
      (places.filterMap ((fitRecords schema records).1[·]?),
        (fitRecords schema records).2.map fun row => places.map fun p => row[p]?.getD .null) := by
  induction records generalizing schema with
  | nil => rfl
  | cons record rest ih =>
    have hfirst := fitRecord_places (hsame record)
    have hrow : places.filterMap ((fitRecord schema record).2[·]?) =
        places.map fun p => (fitRecord schema record).2[p]?.getD .null :=
      filterMap_getElem?_eq_map (fun p hp => (hlt p hp).trans_eq (List.length_map _).symm) _
    have hlt' : ∀ p ∈ places, p < (fitRecord schema record).1.length := fun p hp =>
      (hlt p hp).trans_eq (List.length_map _).symm
    have hrest := ih hlt' (by rwa [names_fitRecord])
    rw [List.map_cons, fitRecords_cons, hfirst, hrest, fitRecords_cons, List.map_cons, hrow]

/-! ### Both ways -/

theorem withoutStatistics_of_hasStatistics {d : AttributeDomain} (h : d.hasStatistics = false) :
    d.withoutStatistics = d := by
  obtain ⟨kind, min, max, count, unique, nullable⟩ := d
  simp only [AttributeDomain.hasStatistics, Bool.or_eq_false_iff, Option.isSome_eq_false_iff,
    Option.isNone_iff_eq_none] at h
  obtain ⟨⟨⟨⟨rfl, rfl⟩, rfl⟩, rfl⟩, rfl⟩ := h
  rfl

/-- A relation of records has no statistics. -/
theorem withoutStatistics_fitRecords (first : Record) (records : List Record) :
    Schema.withoutStatistics (fitRecords (suggestedSchema first) records).1 =
      (fitRecords (suggestedSchema first) records).1 := by
  refine (List.map_congr_left fun entry hentry => ?_).trans (List.map_id _)
  obtain ⟨name, d'⟩ := entry
  obtain ⟨p, hp⟩ := List.getElem?_of_mem hentry
  obtain ⟨d, hd, hwide⟩ := exists_of_fitRecords_getElem? hp
  have hclear := hwide.hasStatistics.trans (hasStatistics_of_suggestedSchema hd)
  exact congrArg (Prod.mk name) (withoutStatistics_of_hasStatistics hclear)

section OfRecords

variable {records : List Record} {first : Record}

/-- Columns of a relation of records stand where the first record has them. -/
theorem places_ofRecords (h : records.head? = some first) (columns : List String) :
    (ofRecords records).places columns =
      columns.eraseDups.filterMap (suggestedSchema first).position? := by
  rw [places_eq, ofRecords_of_head? h, Attributes.position?_congr (names_fitRecords _ _)]

/-- The names at the places of some columns are among the columns. -/
theorem mem_of_mem_names_places {name : String}
    (h : name ∈ (columns.eraseDups.filterMap schema.position?).filterMap (schema.names[·]?)) :
    name ∈ columns := by
  obtain ⟨p, hp, hat⟩ := List.mem_filterMap.1 h
  obtain ⟨column, hcolumn, hposition⟩ := List.mem_filterMap.1 hp
  rw [Attributes.getElem?_names_of_position? hposition] at hat
  obtain rfl := Option.some.inj hat
  exact List.mem_eraseDups.1 hcolumn

/-- The relation of records that have been restricted to some attributes of the first one has the
schema and the rows of the projection of the relation of all. -/
theorem ofRecords_map_project (hfirst : records.head? = some first)
    (h : ∀ name ∈ columns, name ∈ Attributes.names first) :
    (ofRecords (records.map (·.project columns))).schema =
        ((ofRecords records).project columns).schema ∧
      (ofRecords (records.map (·.project columns))).rows =
        ((ofRecords records).project columns).rows := by
  have hall := ofRecords_of_head? hfirst
  have hfirst' : (records.map (·.project columns)).head? = some (first.project columns) := by
    rw [List.head?_map, hfirst, Option.map_some]
  have hplaces := places_ofRecords hfirst columns
  have hlt : ∀ p ∈ (ofRecords records).places columns, p < (suggestedSchema first).length := by
    intro p hp
    have hin := lt_of_mem_places hp
    rwa [hall, length_fitRecords] at hin
  have hsame : ∀ record : Record,
      ∀ name ∈ ((ofRecords records).places columns).filterMap ((suggestedSchema first).names[·]?),
        (record.project columns).value name = record.value name := by
    intro record name hname
    rw [hplaces] at hname
    exact Record.value_project (mem_of_mem_names_places hname)
  have hfit := fitRecords_places (·.project columns) hlt hsame records
  rw [ofRecords_of_head? hfirst', suggestedSchema_project h, ← hplaces, hfit]
  refine ⟨?_, ?_⟩
  · rw [schema_project, ← filterMap_getElem?_withoutStatistics, hall,
      withoutStatistics_fitRecords]
  · rw [rows_project, hall]

end OfRecords

end Relation

namespace RecordStream

/-- Every record of a pass is restricted. -/
theorem run_select (columns : List String) (records : List Record) :
    (Stage.select columns).run (records.map .ok) = records.map fun r => .ok (r.project columns) := by
  induction records with
  | nil => rfl
  | cons r records ih => exact congrArg (.ok (r.project columns) :: ·) ih

variable {records : List Record} {first : Record} {columns : List String}

/-- The relation of a stream that has been restricted to some attributes, all of which the first of
its records has, is the relation of its records with only the columns of these names: it has the
same attributes in the same order, of the same kinds, and the same rows. -/
theorem toRelation_select {a : SpillArea} {s : RecordStream}
    (hs : (s.traverse a).1.map Traversal.items = .ok (records.map .ok))
    (hfirst : records.head? = some first) (h : ∀ name ∈ columns, name ∈ Attributes.names first)
    (b : SpillArea) :
    ∃ t r, (s.traverse a).1 = .ok t ∧
      (through (t.through (.select columns))).toRelation b = .ok r ∧
      r.schema = ((Relation.ofRecords records).project columns).schema ∧
      r.rows = ((Relation.ofRecords records).project columns).rows := by
  cases ht : (s.traverse a).1 with
  | error fault => rw [ht] at hs; cases hs
  | ok t =>
    rw [ht] at hs
    have hitems : t.items = records.map .ok := Except.ok.inj hs
    have hrestricted : (t.through (.select columns)).items =
        (records.map (·.project columns)).map .ok := by
      rw [Traversal.items, Traversal.through, Traversal.itemsOf_stageSteps, ← Traversal.items,
        hitems, run_select, List.map_map]
      rfl
    refine ⟨t, Relation.ofRecords (records.map (·.project columns)), rfl, ?_,
      Relation.ofRecords_map_project hfirst h⟩
    show relationOf (t.through (.select columns)).items = _
    rw [hrestricted, relationOf, Item.records_map_ok, Except.map]

/-- A kept stream of records one of which has a column that is widened, restricted to two of three
columns, one of them mentioned twice. -/
theorem toRelation_select_unevenRecords :
    ∃ t r, ((materialized (Relation.unevenRecords.map (·.val))).traverse {}).1 = .ok t ∧
      (through (t.through (.select ["s", "n", "s"]))).toRelation {} = .ok r ∧
      (r.schema.map fun (name, d) => (name, d.kind)) = [("s", .string), ("n", .other)] ∧
      r.rows = [[.text "x", .int 1], [.text "2021-03-04", .int 2], [.null, .text "many"],
        [.null, .text "3"]] := by
  have hs : ((materialized (Relation.unevenRecords.map (·.val))).traverse {}).1.map
      Traversal.items = .ok ((Relation.unevenRecords.map (·.val)).map .ok) := rfl
  have hcolumns : ∀ name ∈ ["s", "n", "s"], name ∈ ["n", "z", "s"] := by decide
  obtain ⟨t, r, ht, hr, hschema, hrows⟩ := toRelation_select hs rfl hcolumns {}
  exact ⟨t, r, ht, hr, hschema ▸ (by decide), hrows.trans (by rfl)⟩

end RecordStream

end RecordFlow
