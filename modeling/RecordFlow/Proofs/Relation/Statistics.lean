import RecordFlow.Proofs.Aggregate.Extremes
import RecordFlow.Proofs.Distinct
import RecordFlow.Relation.Profile

/-!
# Statistics of a column

`AttributeDomain.Describes` says what the statistics of an attribute are, given its column: the
least and the greatest value in the order for sorting, the first one of equals, the number of values
that are not NULL and of their keys, and whether some value is NULL. A summary keeps these up to
date while it looks at one value after the other (`ColumnSummary.Summarizes.add`), so a profile
describes every column (`ColumnSummary.describes_domain`).
-/

namespace RecordFlow

/-! ### Descriptions -/

/-- The domain has the statistics of a column. -/
structure AttributeDomain.Describes (d : AttributeDomain) (column : List Value) : Prop where
  count : d.count = some (Aggregate.present column).length
  nullable : d.nullable = some (column.any Value.isNull)
  /-- Values are told apart by their keys. -/
  unique : d.unique = some ((Aggregate.present column).map Value.key).eraseDups.length
  min : IsBound Value.compareForSort d.min (Aggregate.present column)
  max : IsBound (fun v w => w.compareForSort v) d.max (Aggregate.present column)

namespace ColumnSummary

/-- The summary is one of the column. -/
structure Summarizes (s : ColumnSummary) (column : List Value) : Prop where
  min : IsBound Value.compareForSort (s.bounds.map (·.1)) (Aggregate.present column)
  max : IsBound (fun v w => w.compareForSort v) (s.bounds.map (·.2)) (Aggregate.present column)
  count : s.count = (Aggregate.present column).length
  keys_nodup : s.keys.Nodup
  mem_keys : ∀ k, k ∈ s.keys ↔ k ∈ (Aggregate.present column).map Value.key
  nullable : s.nullable = column.any Value.isNull

theorem summarizes_nil : Summarizes {} [] where
  min := rfl
  max := rfl
  count := rfl
  keys_nodup := List.nodup_nil
  mem_keys _ := Iff.rfl
  nullable := rfl

theorem present_append_null {v : Value} (h : v.isNull) (column : List Value) :
    Aggregate.present (column ++ [v]) = Aggregate.present column := by
  simp [Aggregate.present, h]

theorem present_append {v : Value} (h : v.isNull = false) (column : List Value) :
    Aggregate.present (column ++ [v]) = Aggregate.present column ++ [v] := by
  simp [Aggregate.present, h]

theorem widen_eq (bounds : Value × Value) (v : Value) : Aggregate.widen bounds v =
    (if v.compareForSort bounds.1 = .lt then v else bounds.1,
      if bounds.2.compareForSort v = .lt then v else bounds.2) := by
  simp only [Aggregate.widen, beq_iff_eq, Std.OrientedCmp.gt_iff_lt]

theorem add_of_isNull (s : ColumnSummary) {v : Value} (h : v.isNull) :
    s.add v = { s with nullable := true } := by
  rw [ColumnSummary.add, if_pos h]

theorem add_of_not_isNull (s : ColumnSummary) {v : Value} (h : v.isNull = false) : s.add v =
    { s with
      bounds := some (s.bounds.elim (v, v) (Aggregate.widen · v))
      count := s.count + 1
      keys := s.keys.insert v.key } := by
  rw [ColumnSummary.add, h, if_neg Bool.false_ne_true]

theorem nodup_insert {k : List UInt8} {keys : List (List UInt8)} (h : keys.Nodup) :
    (keys.insert k).Nodup := by
  by_cases hk : k ∈ keys
  · rwa [List.insert_of_mem hk]
  · rw [List.insert_of_not_mem hk]
    exact List.nodup_cons.2 ⟨hk, h⟩

/-- The summary of the values so far becomes, with one more value, the summary of these. -/
theorem Summarizes.add {s : ColumnSummary} {column : List Value} (h : s.Summarizes column)
    (v : Value) : (s.add v).Summarizes (column ++ [v]) := by
  cases hv : v.isNull with
  | true =>
    rw [add_of_isNull s hv]
    refine ⟨?_, ?_, ?_, h.keys_nodup, ?_, by simp [hv]⟩ <;> rw [present_append_null hv]
    · exact h.min
    · exact h.max
    · exact h.count
    · exact h.mem_keys
  | false =>
    rw [add_of_not_isNull s hv]
    have hmin := h.min.append v
    have hmax := h.max.append v
    rw [← present_append hv] at hmin hmax
    refine ⟨?_, ?_, ?_, nodup_insert h.keys_nodup, ?_, by simp [hv, h.nullable]⟩
    · cases hbounds : s.bounds with
      | none => rwa [hbounds] at hmin
      | some bounds =>
        rw [hbounds] at hmin
        rwa [Option.elim_some, widen_eq]
    · cases hbounds : s.bounds with
      | none => rwa [hbounds] at hmax
      | some bounds =>
        rw [hbounds] at hmax
        rwa [Option.elim_some, widen_eq]
    · rw [present_append hv, List.length_append, h.count]
      rfl
    · intro k
      rw [present_append hv, List.map_append, List.mem_append, ← h.mem_keys, List.mem_insert_iff,
        List.map_singleton, List.mem_singleton, or_comm]

/-- A summary is one of the column that it has looked at. -/
theorem Summarizes.foldl_add {s : ColumnSummary} {seen : List Value} (h : s.Summarizes seen)
    (rest : List Value) : (rest.foldl ColumnSummary.add s).Summarizes (seen ++ rest) := by
  induction rest generalizing s seen with
  | nil =>
    rw [List.append_nil]
    exact h
  | cons v rest ih =>
    have hrest := ih (h.add v)
    rwa [List.append_assoc] at hrest

theorem summarizes_ofColumn (column : List Value) : (ofColumn column).Summarizes column :=
  summarizes_nil.foldl_add column

/-- The domain of a column has the statistics of the column. -/
theorem describes_domain (column : List Value) (kind : LogicalType) :
    ((ofColumn column).domain kind).Describes column := by
  have h := summarizes_ofColumn column
  refine ⟨congrArg some h.count, congrArg some h.nullable, congrArg some ?_, h.min, h.max⟩
  exact length_eraseDups h.keys_nodup h.mem_keys

end ColumnSummary

end RecordFlow
