import RecordFlow.Proofs.Relation.ColumnChoice
import RecordFlow.Proofs.Relation.Grouping

/-!
# A profile agrees with reductions and groupings

The statistics of an attribute are kept by one pass over its column, apart from the reductions of
that column and from the groups by it. They say the same (`Relation.profile_agrees`): the extremes
are those of the reductions, and as values are told apart by their keys in both, there are as many
groups as different values, and one more if there is NULL.
-/

namespace RecordFlow

/-! ### Different values of a column -/

namespace Value

theorem key_eq_key_null_iff {v : Value} : v.key = Value.null.key ↔ v.isNull := by
  rw [← alike_iff_key_eq]
  cases v <;> simp [Alike, isNull, isNaN, compare?]

end Value

namespace Aggregate

theorem mem_present {v : Value} {column : List Value} :
    v ∈ present column ↔ v ∈ column ∧ v.isNull = false := by
  simp [present]

/-- NULL is one more value than those that are counted. -/
theorem length_eraseDups_keys (column : List Value) :
    (column.map Value.key).eraseDups.length =
      if column.any Value.isNull then ((present column).map Value.key).eraseDups.length + 1
      else ((present column).map Value.key).eraseDups.length := by
  split
  · rename_i hnull
    obtain ⟨v, hv, hvnull⟩ := List.any_eq_true.1 hnull
    have hnodup : (Value.null.key :: ((present column).map Value.key).eraseDups).Nodup := by
      refine List.nodup_cons.2 ⟨fun hmem => ?_, nodup_eraseDups _⟩
      obtain ⟨w, hw, hkey⟩ := List.mem_map.1 (List.mem_eraseDups.1 hmem)
      have hwnull := Value.key_eq_key_null_iff.1 hkey
      rw [(mem_present.1 hw).2] at hwnull
      cases hwnull
    refine (length_eraseDups hnodup fun k => ?_).symm
    rw [List.mem_cons, List.mem_eraseDups, List.mem_map, List.mem_map]
    constructor
    · rintro (rfl | ⟨w, hw, rfl⟩)
      · exact ⟨v, hv, Value.key_eq_key_null_iff.2 hvnull⟩
      · exact ⟨w, (mem_present.1 hw).1, rfl⟩
    · rintro ⟨w, hw, rfl⟩
      cases hwnull : w.isNull with
      | true => exact .inl (Value.key_eq_key_null_iff.2 hwnull)
      | false => exact .inr ⟨w, mem_present.2 ⟨hw, hwnull⟩, rfl⟩
  · rename_i hnull
    have hpresent : present column = column := by
      simpa [present, List.filter_eq_self] using hnull
    rw [hpresent]

end Aggregate

/-! ### One column of a relation -/

namespace Relation

variable {r : Relation} {name : String}

theorem column_of_mem (h : name ∈ r.schema.names) :
    r.column name = .ok (r.valuesAt (r.place name)) := by
  rw [column, position, position?_of_mem h]
  rfl

theorem keyAt_singleton (p : Nat) (row : Tuple) :
    Grouping.keyAt [p] row = (row[p]?.getD .null).key := by
  simp [Grouping.keyAt, Grouping.valuesAt]

/-- A grouping by one column has a group for every different key of its values. -/
theorem exists_groupBy_singleton (h : name ∈ r.schema.names) :
    ∃ g, r.groupBy [name] = .ok g ∧
      g.groups.length = ((r.valuesAt (r.place name)).map Value.key).eraseDups.length := by
  have hkeys := calc r.rows.zipIdx.map (fun entry => Grouping.keyAt [r.place name] entry.1)
    _ = (r.rows.zipIdx.map Prod.fst).map (Grouping.keyAt [r.place name]) := by
      rw [List.map_map, Function.comp_def]
    _ = r.rows.map fun row => (row[r.place name]?.getD .null).key := by
      rw [List.zipIdx_map_fst, List.map_congr_left fun row _ => keyAt_singleton _ row]
    _ = (r.valuesAt (r.place name)).map Value.key := by
      rw [valuesAt, List.map_map, Function.comp_def]
  refine ⟨_, groupBy_of_mem (List.cons_ne_nil _ _) (by simpa using h), ?_⟩
  rw [Grouping.groupsOf_eq, List.map_singleton, List.length_map, List.length_map, Grouping.keysOf,
    hkeys]

/-- A profile knows the statistics of every column. -/
theorem exists_get?_profile (h : name ∈ r.schema.names) :
    ∃ d, r.profile.schema.get? name = some d ∧ d.Describes (r.valuesAt (r.place name)) := by
  have hplace : r.profile.schema.position? name = some (r.place name) := by
    rw [Attributes.position?_congr (names_profile r)]
    exact position?_of_mem h
  have hentry := List.getElem?_eq_getElem (Attributes.lt_of_position? hplace)
  have hname := Attributes.bind_position? r.profile.schema name
  rw [hplace, Option.bind_some, hentry] at hname
  obtain ⟨d, hd, hpair⟩ := Option.map_eq_some_iff.1 hname.symm
  rw [← hpair] at hentry
  obtain ⟨d₀, -, rfl⟩ := profile_getElem? hentry
  exact ⟨_, hd, ColumnSummary.describes_domain _ _⟩

/-! ### Agreement -/

/-- The statistics that a profile has of an attribute: the extremes are those of the reductions of
the column, that is the first of the values that no other one goes past, and there are none of a
column without values. The number of values leaves NULL out, and so does the number of different
ones, which tells the number of groups. -/
theorem profile_agrees {r : Relation} {name : String} (h : name ∈ r.schema.names) :
    ∃ d column g, r.profile.schema.get? name = some d ∧ r.column name = .ok column ∧
      r.groupBy [name] = .ok g ∧
      d.min = (Aggregate.min name column).toOption ∧
      d.max = (Aggregate.max name column).toOption ∧
      (∀ low high, (Aggregate.minMax name column).toOption = some (low, high) ↔
        d.min = some low ∧ d.max = some high) ∧
      d.min = (Aggregate.present column).find? (fun v =>
        (Aggregate.present column).all fun w => (v.compareForSort w).isLE) ∧
      d.max = (Aggregate.present column).find? (fun v =>
        (Aggregate.present column).all fun w => (v.compareForSort w).isGE) ∧
      d.count = some (Aggregate.present column).length ∧
      d.nullable = some (column.any Value.isNull) ∧
      ∃ unique, d.unique = some unique ∧
        g.groups.length = if d.nullable = some true then unique + 1 else unique := by
  obtain ⟨d, hd, hdescribes⟩ := exists_get?_profile h
  obtain ⟨g, hg, hgroups⟩ := exists_groupBy_singleton h
  have hmin := hdescribes.min.eq_find?
  have hmax := hdescribes.max.eq_find?
  have hminOf : d.min = (Aggregate.min name (r.valuesAt (r.place name))).toOption := by
    rw [Aggregate.toOption_min, (Aggregate.isBound_extreme?_lt _).eq_find?, hmin]
  have hmaxOf : d.max = (Aggregate.max name (r.valuesAt (r.place name))).toOption := by
    rw [Aggregate.toOption_max, (Aggregate.isBound_extreme?_gt _).eq_find?, hmax]
  refine ⟨d, _, g, hd, column_of_mem h, hg, hminOf, hmaxOf, ?_, hmin, ?_, hdescribes.count,
    hdescribes.nullable, _, hdescribes.unique, ?_⟩
  · intro low high
    rw [hminOf, hmaxOf]
    exact Aggregate.toOption_minMax_eq_some_iff
  · simp only [hmax, Bool.eq_iff_iff.2 Std.OrientedCmp.isGE_iff_isLE]
  · rw [hgroups, Aggregate.length_eraseDups_keys, hdescribes.nullable]
    simp only [Option.some.injEq]

/-- One number of both kinds, NaN of both signs, NULL and a text. -/
def mixedColumn : Relation :=
  .ofTuples [("size", { kind := .other })] [
    [.float (.nan false)], [.null], [.float (.ofInt 1)], [.int 1], [.text "b"], [.float (.nan true)]]

/-- Of equal values, the least one is the first, whichever kind it has. -/
theorem profile_agrees_mixedColumn : ∃ d g,
    mixedColumn.profile.schema.get? "size" = some d ∧ mixedColumn.groupBy ["size"] = .ok g ∧
      d.min.map Value.kindName = some "float" ∧ d.unique = some 3 ∧ d.nullable = some true ∧
      g.groups.length = 4 := by
  have hname : "size" ∈ mixedColumn.schema.names := by decide
  have hstatistics : (mixedColumn.profile.schema.get? "size").map
      (fun d => (d.min.map Value.kindName, d.unique, d.nullable)) =
        some (some "float", some 3, some true) := by decide +kernel
  obtain ⟨d, column, g, hd, -, hg, -, -, -, -, -, -, -, unique, hunique, hgroups⟩ :=
    profile_agrees hname
  rw [hd, Option.map_some, hunique] at hstatistics
  simp only [Option.some.injEq, Prod.mk.injEq] at hstatistics
  obtain ⟨hmin, rfl, hnullable⟩ := hstatistics
  rw [if_pos hnullable] at hgroups
  exact ⟨d, g, hd, hg, hmin, hunique, hnullable, hgroups⟩

end Relation

end RecordFlow
