import RecordFlow.Proofs.Relation.Projection

/-!
# Laws of selection and projection

A placed filter reads a row only at the positions of its names (`Query.Filter.holds_placed_congr`),
and these lead to the same values in a row and in what a projection leaves of it. So selections may
change places with one another and with a projection that keeps the names of the filter, and
projections are composed (`Relation.algebra_laws`).
-/

namespace RecordFlow

/-! ### Filters on rows of two schemas -/

namespace Query

variable {α β : Type} {schema : Attributes α} {schema' : Attributes β}

/-- A condition holds of two rows that have the same value at the positions of its attribute. -/
theorem Condition.holds_placed_congr {c : Condition} {row row' : Tuple}
    (h : row[(schema.position? c.name).getD 0]?.getD .null =
      row'[(schema'.position? c.name).getD 0]?.getD .null) :
    (c.placed schema).holds row = (c.placed schema').holds row' :=
  congrArg (c.operator.apply · c.value) h

/-- A filter holds of two rows that have the same values at the positions of its attributes. -/
theorem Filter.holds_placed_congr {f : Filter} {row row' : Tuple}
    (h : ∀ name ∈ f.attributes, row[(schema.position? name).getD 0]?.getD .null =
      row'[(schema'.position? name).getD 0]?.getD .null) :
    (f.placed schema).holds row = (f.placed schema').holds row' := by
  rw [PlacedFilter.holds, PlacedFilter.holds, placed, placed, List.any_map, List.any_map]
  refine any_eq_any_of_mem fun clause hclause => ?_
  rw [Function.comp_apply, Function.comp_apply, List.all_map, List.all_map]
  refine all_eq_all_of_mem fun c hc => ?_
  rw [Function.comp_apply, Function.comp_apply]
  exact Condition.holds_placed_congr (h c.name (mem_attributes.2 ⟨clause, hclause, c, hc, rfl⟩))

/-- Where the attributes of a filter stand depends on the names of the schema only. -/
theorem Filter.placed_congr (f : Filter) (h : schema.names = schema'.names) :
    f.placed schema = f.placed schema' := by
  have hcondition : Condition.placed schema = Condition.placed schema' := by
    funext c
    rw [Condition.placed, Condition.placed, Attributes.position?_congr h]
  rw [placed, placed, hcondition]

end Query

namespace Relation

variable {r : Relation} {e f : Query.Filter}

/-- The rows of the relation of which a filter on its attributes holds. -/
theorem select_of_subset (h : ∀ name ∈ f.attributes, name ∈ r.schema.names) :
    r.select f = .ok (r.withRows (r.rows.filter (f.placed r.schema).holds)) := by
  rw [select_eq, Query.Filter.place_of_subset h]
  rfl

/-! ### Selections of selections -/

theorem names_withRows (r : Relation) (rows : List Tuple) :
    (r.withRows rows).schema.names = r.schema.names :=
  names_withoutStatistics r.schema

theorem withRows_withRows (r : Relation) (rows rows' : List Tuple) :
    (r.withRows rows).withRows rows' = r.withRows rows' := by
  rw [withRows, withRows, withoutStatistics_withoutStatistics, withRows]

/-- Two selections leave the rows of which both filters hold. -/
theorem select_select (he : ∀ name ∈ e.attributes, name ∈ r.schema.names)
    (hf : ∀ name ∈ f.attributes, name ∈ r.schema.names) :
    (r.select e).bind (·.select f) = .ok (r.withRows (r.rows.filter fun row =>
      (f.placed r.schema).holds row && (e.placed r.schema).holds row)) := by
  have hf' : ∀ name ∈ f.attributes,
      name ∈ (r.withRows (r.rows.filter (e.placed r.schema).holds)).schema.names := by
    intro name hname
    rw [names_withRows]
    exact hf name hname
  rw [select_of_subset he, Except.bind, select_of_subset hf', withRows_withRows,
    f.placed_congr (names_withRows r _), ← List.filter_filter]
  rfl

/-! ### Selections and projections -/

/-- Where a filter reads a row, it finds the same values in what a projection to its attributes
leaves of the row. -/
theorem holds_placed_project {columns : List String}
    (hcolumns : ∀ name ∈ e.attributes, name ∈ columns)
    (he : ∀ name ∈ e.attributes, name ∈ r.schema.names) (row : Tuple) :
    (e.placed (r.project columns).schema).holds
      ((r.places columns).map fun p => row[p]?.getD .null) = (e.placed r.schema).holds row := by
  apply Query.Filter.holds_placed_congr
  intro name hname
  obtain ⟨p, hp⟩ := Option.isSome_iff_exists.1 (Attributes.isSome_position?_iff.2 (he name hname))
  have hlead := position?_project r columns name
  rw [if_pos (hcolumns name hname), hp, Option.bind_eq_some_iff] at hlead
  obtain ⟨q, hq, hpq⟩ := hlead
  rw [hq, hp, Option.getD_some, List.getElem?_map, hpq]
  rfl

/-- Rows put into a relation are projected as the rows of the relation are. -/
theorem project_withRows (r : Relation) (rows : List Tuple) (columns : List String) :
    (r.withRows rows).project columns = (r.project columns).withRows
      (rows.map fun row => (r.places columns).map fun p => row[p]?.getD .null) := by
  have hplaces : (r.withRows rows).places columns = r.places columns := by
    rw [places, places, Attributes.position?_congr (names_withRows r rows)]
  have hschema : ((r.withRows rows).project columns).schema =
      (r.project columns).schema.withoutStatistics := by
    rw [schema_project, hplaces, schema_project, withRows, filterMap_getElem?_withoutStatistics]
  have hrows : ((r.withRows rows).project columns).rows =
      rows.map fun row => (r.places columns).map fun p => row[p]?.getD .null := by
    rw [rows_project, hplaces, withRows]
  exact congrArg₂ (fun schema rows => Relation.mk r.name schema rows false) hschema hrows

/-- What a selection leaves, projected to names that its filter is among, is what it leaves of the
projection. -/
theorem select_project {columns : List String}
    (hcolumns : ∀ name ∈ e.attributes, name ∈ columns)
    (he : ∀ name ∈ e.attributes, name ∈ r.schema.names) :
    (r.project columns).select e = (r.select e).map (·.project columns) := by
  have he' : ∀ name ∈ e.attributes, name ∈ (r.project columns).schema.names :=
    fun name hname => mem_names_project.2 ⟨hcolumns name hname, he name hname⟩
  have hrows : (r.project columns).rows.filter (e.placed (r.project columns).schema).holds =
      (r.rows.filter (e.placed r.schema).holds).map fun row =>
        (r.places columns).map fun p => row[p]?.getD .null := by
    rw [rows_project, List.filter_map]
    refine congrArg _ (List.filter_congr fun row _ => ?_)
    exact holds_placed_project hcolumns he row
  rw [select_of_subset he', select_of_subset he, hrows, Except.map, project_withRows]

/-! ### The laws -/

/-- For any relation and any filters on its attributes: two selections leave the same relation in
either order; a selection of a projection that keeps the attributes of its filter is the projection
of the selection; and two projections, to any names, are one to those of the later names that are
among the earlier ones. All these requests succeed. -/
theorem algebra_laws (r : Relation) {e f : Query.Filter}
    (he : ∀ name ∈ e.attributes, name ∈ r.schema.names)
    (hf : ∀ name ∈ f.attributes, name ∈ r.schema.names) (columns further : List String) :
    (∃ s, (r.select e).bind (·.select f) = .ok s ∧ (r.select f).bind (·.select e) = .ok s) ∧
    ((∀ name ∈ e.attributes, name ∈ columns) →
      ∃ s, (r.project columns).select e = .ok s ∧ (r.select e).map (·.project columns) = .ok s) ∧
    (r.project columns).project further =
      r.project (further.filter fun name => columns.contains name) := by
  refine ⟨⟨_, select_select he hf, ?_⟩, fun hcolumns => ?_, project_project r columns further⟩
  · rw [select_select hf he]
    simp only [Bool.and_comm]
  · have hselect := select_of_subset he
    exact ⟨_, (select_project hcolumns he).trans (by rw [hselect, Except.map]),
      by rw [hselect, Except.map]⟩

/-- A column whose name reads like a path into the column beside it, and one of numbers. -/
def pathRelation : Relation :=
  .ofRecords [
    [("a", .struct [("b", .int 1)]), ("a.b", .int 2), ("n", .int 5)],
    [("a", .struct [("b", .int 2)]), ("a.b", .int 1), ("n", .float .one)],
    [("a.b", .int 2), ("n", .text "7")]]

/-- The filter `a.b == 2`. -/
def pathFilter : Query.Filter :=
  ⟨[⟨[⟨"a.b", .eq, .int 2⟩], by decide⟩], by decide⟩

/-- The filter `n > 5 OR n == 1`. -/
def numberFilter : Query.Filter :=
  ⟨[⟨[⟨"n", .gt, .int 5⟩], by decide⟩, ⟨[⟨"n", .eq, .int 1⟩], by decide⟩], by decide⟩

/-- The laws for filters on two columns and projections with repeated and unknown names. -/
theorem algebra_laws_pathRelation :
    ((∀ name ∈ pathFilter.attributes, name ∈ pathRelation.schema.names) ∧
      ∀ name ∈ numberFilter.attributes, name ∈ pathRelation.schema.names) ∧
    (∃ s, (pathRelation.select numberFilter).bind (·.select pathFilter) = .ok s ∧
      s.records = [[("a", .null), ("a.b", .int 2), ("n", .int 7)]]) ∧
    (∃ s, (pathRelation.project ["n", "none", "a.b", "n"]).select pathFilter = .ok s ∧
      s.records = [[("n", .int 5), ("a.b", .int 2)], [("n", .int 7), ("a.b", .int 2)]]) ∧
    (pathRelation.project ["n", "none", "a.b", "n"]).project ["a.b", "a", "none", "a.b"] =
      pathRelation.project ["a.b", "none", "a.b"] := by
  have hpath : ∀ name ∈ pathFilter.attributes, name ∈ pathRelation.schema.names := by
    decide
  have hnumber : ∀ name ∈ numberFilter.attributes, name ∈ pathRelation.schema.names := by
    decide
  obtain ⟨⟨s, hs, hother⟩, hproject, hfurther⟩ :=
    algebra_laws pathRelation hpath hnumber ["n", "none", "a.b", "n"] ["a.b", "a", "none", "a.b"]
  obtain ⟨t, ht, hselect⟩ := hproject (by decide)
  refine ⟨⟨hpath, hnumber⟩, ⟨s, hother, ?_⟩, ⟨t, ht, ?_⟩, hfurther⟩
  · have hrecords := congrArg (Except.map records) hs
    exact (Except.ok.inj hrecords).symm.trans (by rfl)
  · have hrecords := congrArg (Except.map records) hselect
    exact (Except.ok.inj hrecords).symm.trans (by rfl)

end Relation

end RecordFlow
