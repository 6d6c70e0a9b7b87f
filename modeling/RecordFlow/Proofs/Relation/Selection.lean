import RecordFlow.Relation.Basic

/-!
# Selection by position and filtering by name

A selection replaces the names of its filter by positions once and then looks at rows. It answers as
the filter does on the record of each row (`Relation.select_spec`): the record of a row has an
attribute under every name of the schema, so a name that is in the schema is never followed as a
path, whatever points it contains.
-/

namespace RecordFlow

/-! ### Lists of requests that can fail -/

section MapM

variable {α β ε : Type} {f : α → Except ε β}

theorem mapM_of_ok {g : α → β} {as : List α} (h : ∀ a ∈ as, f a = .ok (g a)) :
    as.mapM f = .ok (as.map g) := by
  induction as with
  | nil => rfl
  | cons a as ih =>
    rw [List.mapM_cons, h a List.mem_cons_self, ih fun b hb => h b (List.mem_cons_of_mem a hb)]
    rfl

/-- Requests that succeed together succeed one by one. -/
theorem map_of_mapM {as : List α} {bs : List β} (h : as.mapM f = .ok bs) :
    as.map f = bs.map .ok := by
  induction as generalizing bs with
  | nil =>
    cases h
    rfl
  | cons a as ih =>
    rw [List.mapM_cons] at h
    cases ha : f a with
    | error e => rw [ha] at h; cases h
    | ok b =>
      cases has : as.mapM f with
      | error e => rw [ha, has] at h; cases h
      | ok bs' =>
        rw [ha, has] at h
        obtain rfl := Except.ok.inj h
        rw [List.map_cons, List.map_cons, ha, ih has]

theorem exists_ok_of_mapM {as : List α} {bs : List β} (h : as.mapM f = .ok bs) {a : α}
    (ha : a ∈ as) : ∃ b, f a = .ok b := by
  have hmem := List.mem_map_of_mem (f := f) ha
  rw [map_of_mapM h] at hmem
  obtain ⟨b, -, hb⟩ := List.mem_map.1 hmem
  exact ⟨b, hb.symm⟩

theorem exists_mem_of_mapM {as : List α} {bs : List β} (h : as.mapM f = .ok bs) {b : β}
    (hb : b ∈ bs) : ∃ a ∈ as, f a = .ok b := by
  have hmem : Except.ok b ∈ bs.map (.ok : β → Except ε β) := List.mem_map_of_mem hb
  rw [← map_of_mapM h] at hmem
  exact List.mem_map.1 hmem

/-- If some requests fail together, one of them fails with that failure. -/
theorem exists_error_of_mapM {as : List α} {e : ε} (h : as.mapM f = .error e) :
    ∃ a ∈ as, f a = .error e := by
  induction as with
  | nil => cases h
  | cons a as ih =>
    rw [List.mapM_cons] at h
    cases ha : f a with
    | error e' =>
      rw [ha] at h
      obtain rfl := Except.error.inj h
      exact ⟨a, List.mem_cons_self, ha⟩
    | ok b =>
      cases has : as.mapM f with
      | ok bs => rw [ha, has] at h; cases h
      | error e' =>
        rw [ha, has] at h
        obtain rfl := Except.error.inj h
        obtain ⟨c, hc, hfc⟩ := ih has
        exact ⟨c, List.mem_cons_of_mem a hc, hfc⟩

end MapM

theorem any_eq_any_of_mem {α : Type} {p q : α → Bool} {as : List α} (h : ∀ a ∈ as, p a = q a) :
    as.any p = as.any q := by
  induction as with
  | nil => rfl
  | cons a as ih =>
    rw [List.any_cons, List.any_cons, h a List.mem_cons_self,
      ih fun b hb => h b (List.mem_cons_of_mem a hb)]

theorem all_eq_all_of_mem {α : Type} {p q : α → Bool} {as : List α} (h : ∀ a ∈ as, p a = q a) :
    as.all p = as.all q := by
  induction as with
  | nil => rfl
  | cons a as ih =>
    rw [List.all_cons, List.all_cons, h a List.mem_cons_self,
      ih fun b hb => h b (List.mem_cons_of_mem a hb)]

/-! ### Names and positions -/

namespace Attributes

variable {α : Type} {as : Attributes α} {name : String}

theorem position?_eq_none_iff : as.position? name = none ↔ name ∉ as.names := by
  rw [position?, List.findIdx?_eq_none_iff, names, List.mem_map]
  constructor
  · rintro h ⟨entry, hentry, rfl⟩
    have hne := h entry hentry
    simp at hne
  · intro h entry hentry
    rw [beq_eq_false_iff_ne]
    rintro rfl
    exact h ⟨entry, hentry, rfl⟩

theorem lt_of_position? {p : Nat} (h : as.position? name = some p) : p < as.length :=
  (List.findIdx?_eq_some_iff_getElem.1 h).1

theorem position?_cons (entry : String × α) (rest : Attributes α) (name : String) :
    position? (entry :: rest) name =
      if name = entry.1 then some 0 else (position? rest name).map (· + 1) := by
  rw [position?, List.findIdx?_cons]
  by_cases h : entry.1 = name
  · simp [h]
  · simp [h, Ne.symm h, position?]

/-- The record of a row has, under a name, the value at the position of the name. -/
theorem get?_zip {β : Type} (as : Attributes α) (row : List β) (name : String) :
    get? ((names as).zip row) name = (as.position? name).bind (row[·]?) := by
  induction as generalizing row with
  | nil => rfl
  | cons entry as ih =>
    cases row with
    | nil => cases position? (entry :: as) name <;> rfl
    | cons b row =>
      show get? ((entry.1, b) :: (names as).zip row) name = _
      rw [get?_cons, position?_cons, ih]
      split
      · rfl
      · cases position? as name <;> rfl

end Attributes

/-! ### Conditions on rows -/

namespace Query

variable {α : Type} {schema : Attributes α}

/-- The condition on the position of its attribute. -/
def Condition.placed (schema : Attributes α) (c : Condition) : PlacedCondition :=
  ⟨(schema.position? c.name).getD 0, c.operator, c.value⟩

theorem Condition.place_of_mem {c : Condition} (h : c.name ∈ schema.names) :
    c.place schema = .ok (c.placed schema) := by
  rw [place, placed]
  cases hp : schema.position? c.name with
  | some p => rfl
  | none => exact absurd h (Attributes.position?_eq_none_iff.1 hp)

theorem Condition.place_of_not_mem {c : Condition} (h : c.name ∉ schema.names) :
    c.place schema = .error (.notInSchema c.name) := by
  rw [place, Attributes.position?_eq_none_iff.2 h]

theorem Filter.mem_attributes {f : Filter} {name : String} :
    name ∈ f.attributes ↔ ∃ clause ∈ f.clauses, ∃ c ∈ clause.conditions, c.name = name := by
  simp [attributes]

/-- The conditions of a clause on the positions of their attributes. -/
def Clause.place (schema : Attributes α) (clause : Clause) : Except Fault (List PlacedCondition) :=
  clause.conditions.mapM (·.place schema)

/-- The filter with every attribute replaced by its position. -/
def Filter.placed (f : Filter) (schema : Attributes α) : PlacedFilter :=
  ⟨f.clauses.map fun clause => clause.conditions.map (·.placed schema)⟩

theorem Filter.place_eq (f : Filter) :
    f.place schema = (f.clauses.mapM (Clause.place schema)).map PlacedFilter.mk := by
  show (f.clauses.mapM (Clause.place schema)).bind _ = _
  cases f.clauses.mapM (Clause.place schema) <;> rfl

theorem Filter.place_of_subset {f : Filter} (h : ∀ name ∈ f.attributes, name ∈ schema.names) :
    f.place schema = .ok (f.placed schema) := by
  have hclause : ∀ clause ∈ f.clauses, clause.place schema =
      .ok (clause.conditions.map (·.placed schema)) := by
    intro clause hclause
    apply mapM_of_ok
    intro c hc
    exact c.place_of_mem (h c.name (mem_attributes.2 ⟨clause, hclause, c, hc, rfl⟩))
  rw [place_eq, mapM_of_ok hclause]
  rfl

/-- A filter is placed only where all its attributes are. -/
theorem Filter.subset_of_place_ok {f : Filter} {placed : PlacedFilter}
    (h : f.place schema = .ok placed) : ∀ name ∈ f.attributes, name ∈ schema.names := by
  rw [place_eq] at h
  cases hclauses : f.clauses.mapM (Clause.place schema) with
  | error fault => rw [hclauses] at h; cases h
  | ok clauses =>
    intro name hname
    obtain ⟨clause, hclause, c, hc, rfl⟩ := mem_attributes.1 hname
    obtain ⟨conditions, hconditions⟩ := exists_ok_of_mapM hclauses hclause
    obtain ⟨p, hp⟩ := exists_ok_of_mapM hconditions hc
    by_cases hmem : c.name ∈ schema.names
    · exact hmem
    · rw [c.place_of_not_mem hmem] at hp
      cases hp

/-- Placing a filter fails with the name of an attribute that is not there. -/
theorem Filter.exists_of_place_error {f : Filter} {fault : Fault}
    (h : f.place schema = .error fault) :
    ∃ name ∈ f.attributes, name ∉ schema.names ∧ fault = .notInSchema name := by
  rw [place_eq] at h
  cases hclauses : f.clauses.mapM (Clause.place schema) with
  | ok clauses => rw [hclauses] at h; cases h
  | error fault' =>
    rw [hclauses] at h
    obtain rfl := Except.error.inj h
    obtain ⟨clause, hclause, hconditions⟩ := exists_error_of_mapM hclauses
    obtain ⟨c, hc, hplace⟩ := exists_error_of_mapM hconditions
    refine ⟨c.name, mem_attributes.2 ⟨clause, hclause, c, hc, rfl⟩, ?_⟩
    by_cases hmem : c.name ∈ schema.names
    · rw [c.place_of_mem hmem] at hplace
      cases hplace
    · rw [c.place_of_not_mem hmem] at hplace
      exact ⟨hmem, (Except.error.inj hplace).symm⟩

theorem Condition.holds_placed {c : Condition} {row : Tuple} (hname : c.name ∈ schema.names)
    (hrow : schema.length ≤ row.length) :
    (c.placed schema).holds row = c.holds (schema.names.zip row) := by
  cases hp : schema.position? c.name with
  | none => exact absurd hname (Attributes.position?_eq_none_iff.1 hp)
  | some p =>
    have hlt : p < row.length := Nat.lt_of_lt_of_le (Attributes.lt_of_position? hp) hrow
    have hget : Attributes.get? (schema.names.zip row) c.name = some row[p] := by
      rw [Attributes.get?_zip, hp]
      exact List.getElem?_eq_getElem hlt
    -- The name of an attribute is found as it stands, so no path is followed.
    rw [PlacedCondition.holds, placed, hp, holds, Record.atPath, hget]
    simp [List.getElem?_eq_getElem hlt]

theorem Filter.holds_placed {f : Filter} {row : Tuple}
    (h : ∀ name ∈ f.attributes, name ∈ schema.names) (hrow : schema.length ≤ row.length) :
    (f.placed schema).holds row = f.holds (schema.names.zip row) := by
  rw [PlacedFilter.holds, placed, holds, List.any_map]
  apply any_eq_any_of_mem
  intro clause hclause
  rw [Function.comp_apply, Clause.holds, List.all_map]
  apply all_eq_all_of_mem
  intro c hc
  rw [Function.comp_apply]
  exact Condition.holds_placed (h c.name (mem_attributes.2 ⟨clause, hclause, c, hc, rfl⟩)) hrow

end Query

/-! ### Selections -/

namespace Relation

@[simp] theorem names_withoutStatistics (s : Schema) :
    Attributes.names s.withoutStatistics = Attributes.names s := by
  simp [Attributes.names, Schema.withoutStatistics]

theorem records_withRows (r : Relation) (rows : List Tuple) :
    (r.withRows rows).records = rows.map r.recordOf := by
  have hrecord : (r.withRows rows).recordOf = r.recordOf := by
    funext row
    rw [recordOf, recordOf, withRows, names_withoutStatistics]
  rw [records, hrecord, withRows]

theorem select_eq (r : Relation) (f : Query.Filter) : r.select f =
    (f.place r.schema).map fun placed => r.withRows (r.rows.filter placed.holds) := by
  rw [select]
  cases f.place r.schema <;> rfl

/-- A selection succeeds exactly when every attribute of its filter is one of the relation, as it is
written. It fails otherwise as an invalid argument that names a missing attribute. The records of
the result are those of the relation of which the filter holds, in order. -/
theorem select_spec (r : ShapedRelation) (f : Query.Filter) :
    ((∃ s, r.select f = .ok s) ↔ ∀ name ∈ f.attributes, name ∈ r.schema.names) ∧
    (∀ fault, r.select f = .error fault → fault.kind = .invalidArgument ∧
      ∃ name ∈ f.attributes, name ∉ r.schema.names ∧ fault = .notInSchema name) ∧
    ∀ s, r.select f = .ok s → s.records = r.records.filter f.holds := by
  rw [select_eq]
  cases hplace : f.place r.schema with
  | error fault =>
    obtain ⟨name, hname, hnot, rfl⟩ := Query.Filter.exists_of_place_error hplace
    refine ⟨⟨fun ⟨s, hs⟩ => (by cases hs), fun hall => absurd (hall name hname) hnot⟩, ?_,
      fun s hs => (by cases hs)⟩
    intro fault hfault
    obtain rfl := Except.error.inj hfault
    exact ⟨rfl, name, hname, hnot, rfl⟩
  | ok placed =>
    have hnames := Query.Filter.subset_of_place_ok hplace
    rw [Query.Filter.place_of_subset hnames] at hplace
    obtain rfl := Except.ok.inj hplace
    have hrows : r.rows.filter (f.placed r.schema).holds =
        r.rows.filter (f.holds ∘ r.recordOf) := by
      apply List.filter_congr
      intro row hrow
      exact Query.Filter.holds_placed hnames (Nat.le_of_eq (r.shaped.2 row hrow).symm)
    refine ⟨⟨fun _ => hnames, fun _ => ⟨_, rfl⟩⟩, fun fault hfault => (by cases hfault), ?_⟩
    intro s hs
    obtain rfl := Except.ok.inj hs
    rw [records_withRows, hrows, records, List.filter_map]

/-- A column whose name reads like a path into the column beside it. -/
def dottedRelation : Relation :=
  .ofRecords [
    [("a", .struct [("b", .int 1)]), ("a.b", .int 2)],
    [("a", .struct [("b", .int 2)]), ("a.b", .int 1)]]

theorem select_spec_dottedRelation :
    ∃ s, dottedRelation.select ⟨[⟨[⟨"a.b", .eq, .int 2⟩], by decide⟩], by decide⟩ = .ok s ∧
      s.records = [[("a", .struct [("b", .int 1)]), ("a.b", .int 2)]] := by
  obtain ⟨hiff, -, hrecords⟩ :=
    select_spec ⟨dottedRelation, by decide⟩ ⟨[⟨[⟨"a.b", .eq, .int 2⟩], by decide⟩], by decide⟩
  obtain ⟨s, hs⟩ := hiff.2 (by decide)
  exact ⟨s, hs, (hrecords s hs).trans (by rfl)⟩

end Relation

end RecordFlow
