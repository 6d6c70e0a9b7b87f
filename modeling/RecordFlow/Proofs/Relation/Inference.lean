import RecordFlow.Proofs.Relation.Construction

/-!
# Inference of columns

The records of a relation are fitted to its schema one after the other, each of them to all columns
at once. Still every column goes its own way: its domain and its values are those of `fitColumn`,
which reads nothing but the values of this column (`fitRecords_column`). There the values before the
first that does not go into the column are coerced, and from that one on all stand as they are
(`inferred_fitColumn`).
-/

namespace RecordFlow.Relation

/-- The values as a column, one after the other, and the domain of the column afterwards. -/
def fitColumn (d : AttributeDomain) : List Value → AttributeDomain × List Value
  | [] => (d, [])
  | v :: rest =>
    let (d, v) := fitValue d v
    let (d, rest) := fitColumn d rest
    (d, v :: rest)

/-- The position of the first value that does not go into a column of the kind, and the number of
values if there is none. -/
def conflictAt (kind : LogicalType) (values : List Value) : Nat :=
  values.findIdx fun v => (v.coerce kind).isNone

/-- What becomes of a column of a kind when the values go in. -/
structure Inferred (kind : LogicalType) (values : List Value) (kind' : LogicalType)
    (column : List Value) : Prop where
  length : column.length = values.length
  coerced : ∀ {i : Nat} {v : Value}, i < conflictAt kind values → values[i]? = some v →
    column[i]? = v.coerce kind
  kept : ∀ {i : Nat}, conflictAt kind values ≤ i → column[i]? = values[i]?
  kind : kind' = if conflictAt kind values < values.length then .other else kind

/-! ### One column -/

theorem conflictAt_cons_of_isSome {kind : LogicalType} {v : Value} (h : (v.coerce kind).isSome)
    (rest : List Value) : conflictAt kind (v :: rest) = conflictAt kind rest + 1 := by
  rw [conflictAt, List.findIdx_cons, Option.isNone_eq_false_iff.2 h, cond_false, conflictAt]

theorem conflictAt_cons_of_isNone {kind : LogicalType} {v : Value} (h : (v.coerce kind).isNone)
    (rest : List Value) : conflictAt kind (v :: rest) = 0 := by
  rw [conflictAt, List.findIdx_cons, h, cond_true]

theorem fitColumn_cons (d : AttributeDomain) (v : Value) (rest : List Value) :
    fitColumn d (v :: rest) = ((fitColumn (fitValue d v).1 rest).1,
      (fitValue d v).2 :: (fitColumn (fitValue d v).1 rest).2) := rfl

/-- A column of all kinds takes the values as they are. -/
theorem fitColumn_of_other {d : AttributeDomain} (h : d.kind = .other) (values : List Value) :
    fitColumn d values = (d, values) := by
  induction values with
  | nil => rfl
  | cons v rest ih =>
    have hfits : v.Fits d.kind := h ▸ v.fits_other
    rw [fitColumn_cons, fitValue_of_fits hfits, ih]

theorem inferred_nil (kind : LogicalType) : Inferred kind [] kind [] :=
  ⟨rfl, fun _ h => (by cases h), fun _ => rfl, rfl⟩

theorem Inferred.cons {kind kind' : LogicalType} {values column : List Value}
    (h : Inferred kind values kind' column) {v c : Value} (hv : v.coerce kind = some c) :
    Inferred kind (v :: values) kind' (c :: column) := by
  have hconflict := conflictAt_cons_of_isSome (Option.isSome_of_eq_some hv) values
  refine ⟨?_, ?_, ?_, ?_⟩
  · rw [List.length_cons, List.length_cons, h.length]
  · intro i u hi hu
    rw [hconflict] at hi
    cases i with
    | zero =>
      cases hu
      exact hv.symm
    | succ i => exact h.coerced (Nat.lt_of_succ_lt_succ hi) hu
  · intro i hi
    rw [hconflict] at hi
    cases i with
    | zero => cases hi
    | succ i => exact h.kept (Nat.le_of_succ_le_succ hi)
  · rw [hconflict, List.length_cons, h.kind]
    simp only [Nat.add_lt_add_iff_right]

/-- The first conflict of a column makes it one of all kinds. -/
theorem inferred_of_isNone {kind : LogicalType} {v : Value} (h : (v.coerce kind).isNone)
    (rest : List Value) : Inferred kind (v :: rest) .other (v :: rest) := by
  have hconflict := conflictAt_cons_of_isNone h rest
  refine ⟨rfl, ?_, fun _ => rfl, ?_⟩
  · intro i u hi
    rw [hconflict] at hi
    cases hi
  · rw [hconflict, if_pos (List.length_pos_of_ne_nil (List.cons_ne_nil v rest))]

theorem inferred_fitColumn (d : AttributeDomain) (values : List Value) :
    ∃ kind', (fitColumn d values).1 = { d with kind := kind' } ∧
      Inferred d.kind values kind' (fitColumn d values).2 := by
  -- The domain stays as long as values go in, so the induction is over the values before the first
  -- conflict; behind it the column takes the values as they are.
  induction values with
  | nil => exact ⟨d.kind, rfl, inferred_nil d.kind⟩
  | cons v rest ih =>
    cases hv : v.coerce d.kind with
    | some c =>
      have hfit : fitValue d v = (d, c) := by rw [fitValue, hv]
      obtain ⟨kind', hdomain, hinferred⟩ := ih
      rw [fitColumn_cons, hfit]
      exact ⟨kind', hdomain, hinferred.cons hv⟩
    | none =>
      have hfit : fitValue d v = ({ d with kind := .other }, v) := by rw [fitValue, hv]
      rw [fitColumn_cons, hfit, fitColumn_of_other rfl]
      exact ⟨.other, rfl, inferred_of_isNone (Option.isNone_iff_eq_none.2 hv) rest⟩

/-! ### Columns of records -/

/-- A column of fitted records is what becomes of its own values. -/
theorem fitRecords_column {schema : Schema} {p : Nat} {name : String} {d : AttributeDomain}
    (h : schema[p]? = some (name, d)) (records : List Record) :
    (fitRecords schema records).1[p]? =
      some (name, (fitColumn d (records.map (·.value name))).1) ∧
    (fitRecords schema records).2.map (fun row => row[p]?.getD .null) =
      (fitColumn d (records.map (·.value name))).2 := by
  induction records generalizing schema d with
  | nil => exact ⟨h, rfl⟩
  | cons record rest ih =>
    obtain ⟨hdomain, hvalue⟩ := fitRecord_getElem? h record
    obtain ⟨hdomains, hvalues⟩ := ih hdomain
    rw [fitRecords_cons, List.map_cons, List.map_cons, fitColumn_cons, hvalue, hvalues]
    exact ⟨hdomains, rfl⟩

/-- Attributes that the schema does not have make no difference. -/
theorem fitRecords_congr {schema : Schema} {rs ss : List Record}
    (h : rs.map (fun r => schema.names.map r.value) = ss.map fun s => schema.names.map s.value) :
    fitRecords schema rs = fitRecords schema ss := by
  induction rs generalizing schema ss with
  | nil =>
    obtain rfl := List.map_eq_nil_iff.1 h.symm
    rfl
  | cons r rs ih =>
    cases ss with
    | nil => cases h
    | cons s ss =>
      obtain ⟨hfirst, hrest⟩ := List.cons.inj h
      have hfit : fitRecord schema r = fitRecord schema s := by
        refine fitRecord_congr fun entry hentry => ?_
        rw [List.map_inj_left.1 hfirst entry.1 (List.mem_map_of_mem hentry)]
      rw [← names_fitRecord schema s] at hrest
      rw [fitRecords_cons, fitRecords_cons, hfit, ih hrest]

theorem length_rows_fitRecords (schema : Schema) (records : List Record) :
    (fitRecords schema records).2.length = records.length := by
  induction records generalizing schema with
  | nil => rfl
  | cons record rest ih => rw [fitRecords_cons, List.length_cons, List.length_cons, ih]

theorem suggestedSchema_getElem? {first : Record} {p : Nat} {name : String} {v : Value}
    (h : first[p]? = some (name, v)) :
    (suggestedSchema first)[p]? = some (name, { kind := v.logicalType }) := by
  rw [suggestedSchema, List.getElem?_map, h]
  rfl

/-- A relation of records has a row for each record and the attributes of the first one. The kind of
a column is that of its first value; what does not go into it makes it a column of all kinds, in
which the values stand as they are from then on. A column depends on its own values only, and what
later records have besides the attributes of the first one makes no difference. -/
theorem ofRecords_inferred (first : Record) (rest : List Record) :
    (ofRecords (first :: rest)).rows.length = (first :: rest).length ∧
    (ofRecords (first :: rest)).schema.names = Attributes.names first ∧
    (∀ row ∈ (ofRecords (first :: rest)).rows, row.length = first.length) ∧
    (∀ (p : Nat) (name : String) (v : Value), first[p]? = some (name, v) →
      ∃ kind, (ofRecords (first :: rest)).schema[p]? = some (name, { kind := kind }) ∧
        Inferred v.logicalType ((first :: rest).map (·.value name)) kind
          ((ofRecords (first :: rest)).valuesAt p)) ∧
    (∀ (first' : Record) (rest' : List Record) (p p' : Nat) (name : String) (v : Value),
      first[p]? = some (name, v) → first'[p']? = some (name, v) →
      (first :: rest).map (·.value name) = (first' :: rest').map (·.value name) →
      (ofRecords (first :: rest)).schema[p]? = (ofRecords (first' :: rest')).schema[p']? ∧
      (ofRecords (first :: rest)).valuesAt p = (ofRecords (first' :: rest')).valuesAt p') ∧
    (∀ rest' : List Record,
      rest.map (fun r => (Attributes.names first).map r.value) =
        rest'.map (fun r => (Attributes.names first).map r.value) →
      ofRecords (first :: rest) = ofRecords (first :: rest')) := by
  have hcolumn {first : Record} {p : Nat} {name : String} {v : Value}
      (h : first[p]? = some (name, v)) (rest : List Record) :=
    fitRecords_column (suggestedSchema_getElem? h) (first :: rest)
  have hrelation := ofRecords_of_head? (List.head?_cons (a := first) (l := rest))
  refine ⟨?_, ?_, ?_, ?_, ?_, ?_⟩
  · rw [hrelation, length_rows_fitRecords]
  · rw [hrelation, names_fitRecords, names_suggestedSchema]
  · intro row hrow
    rw [hrelation] at hrow
    rw [length_of_mem_fitRecords hrow, suggestedSchema, List.length_map]
  · intro p name v h
    obtain ⟨hdomain, hvalues⟩ := hcolumn h rest
    obtain ⟨kind, hkind, hinferred⟩ :=
      inferred_fitColumn { kind := v.logicalType } ((first :: rest).map (·.value name))
    rw [hkind] at hdomain
    rw [← hvalues] at hinferred
    exact ⟨kind, hdomain, hinferred⟩
  · intro first' rest' p p' name v h h' hsame
    obtain ⟨hdomain, hvalues⟩ := hcolumn h rest
    obtain ⟨hdomain', hvalues'⟩ := hcolumn h' rest'
    rw [hsame] at hdomain hvalues
    exact ⟨hdomain.trans hdomain'.symm, hvalues.trans hvalues'.symm⟩
  · intro rest' hsame
    have hall : fitRecords (suggestedSchema first) (first :: rest) =
        fitRecords (suggestedSchema first) (first :: rest') := by
      refine fitRecords_congr ?_
      rw [names_suggestedSchema, List.map_cons, List.map_cons, hsame]
    rw [hrelation, ofRecords_of_head? List.head?_cons, hall]

theorem ofRecords_inferred_numberThenWord :
    [("id", Value.int 1)][0]? = some ("id", .int 1) ∧
    (ofRecords [[("id", .int 1)], [("id", .text "7")],
      [("id", .text "seven"), ("extra", .null)]]).schema[0]? = some ("id", { kind := .other }) ∧
    ((ofRecords [[("id", .int 1)], [("id", .text "7")],
      [("id", .text "seven"), ("extra", .null)]]).valuesAt 0)[1]? = some (.int 7) ∧
    ((ofRecords [[("id", .int 1)], [("id", .text "7")],
      [("id", .text "seven"), ("extra", .null)]]).valuesAt 0)[2]? = some (.text "seven") ∧
    ofRecords [[("id", .int 1)], [("id", .text "7")],
      [("id", .text "seven"), ("extra", .null)]] =
        ofRecords [[("id", .int 1)], [("id", .text "7")], [("id", .text "seven")]] := by
  have hfirst : [("id", Value.int 1)][0]? = some ("id", .int 1) := rfl
  have hconflict : conflictAt .numeric [.int 1, .text "7", .text "seven"] = 2 := by decide
  have hseven : (Value.text "7").coerce .numeric = some (.int 7) := rfl
  obtain ⟨-, -, -, hcolumns, -, hextra⟩ := ofRecords_inferred [("id", .int 1)]
    [[("id", .text "7")], [("id", .text "seven"), ("extra", .null)]]
  obtain ⟨kind, hschema, hinferred⟩ := hcolumns 0 "id" (.int 1) hfirst
  have hlt : conflictAt .numeric [.int 1, .text "7", .text "seven"] < 3 := by
    rw [hconflict]
    decide
  have hkind : kind = .other := hinferred.kind.trans (if_pos hlt)
  refine ⟨hfirst, hkind ▸ hschema, ?_, ?_, hextra _ rfl⟩
  · exact (hinferred.coerced (Nat.lt_of_lt_of_eq (by decide) hconflict.symm) rfl).trans hseven
  · exact hinferred.kept (Nat.le_of_eq hconflict)

end RecordFlow.Relation
