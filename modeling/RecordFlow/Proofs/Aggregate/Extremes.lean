import RecordFlow.Aggregate
import RecordFlow.Proofs.Value.KeyOrder

/-!
# Extremes of a column

The least and the greatest value of a column, in the order for sorting, are found by a pass that
takes over a value only if it goes past the best one so far. As the order is total, such a pass ends
at the first one of the values that none goes past (`IsFirstLeast.foldl`, `IsBound.eq_find?`). A
single pass for both extremes finds the same two values (`Aggregate.toOption_minMax_eq_some_iff`).
-/

namespace RecordFlow

/-! ### Bounds -/

section Bounds

variable {α : Type} {cmp : α → α → Ordering}

/-- The element is the first of the least ones. -/
def IsFirstLeast (cmp : α → α → Ordering) (a : α) (as : List α) : Prop :=
  ∃ before after, as = before ++ a :: after ∧
    (∀ b ∈ before, cmp a b = .lt) ∧ ∀ b ∈ after, (cmp a b).isLE

/-- The first of the least elements, if there are elements. -/
def IsBound (cmp : α → α → Ordering) : Option α → List α → Prop
  | none, as => as = []
  | some a, as => IsFirstLeast cmp a as

theorem IsFirstLeast.isLE_of_mem [Std.TransCmp cmp] {a b : α} {as : List α}
    (h : IsFirstLeast cmp a as) (hb : b ∈ as) : (cmp a b).isLE := by
  obtain ⟨before, after, rfl, hbefore, hafter⟩ := h
  rcases List.mem_append.1 hb with hb | hb
  · rw [hbefore b hb]
    rfl
  · rcases List.mem_cons.1 hb with rfl | hb
    · have hself : cmp b b = .eq := Std.ReflCmp.compare_self
      rw [hself]
      rfl
    · exact hafter b hb

theorem isFirstLeast_singleton (cmp : α → α → Ordering) (a : α) : IsFirstLeast cmp a [a] :=
  ⟨[], [], rfl, fun b hb => (by cases hb), fun b hb => (by cases hb)⟩

/-- With one more element, the first of the least ones changes only to a smaller one. -/
theorem IsFirstLeast.append [Std.TransCmp cmp] {a : α} {as : List α}
    (h : IsFirstLeast cmp a as) (b : α) :
    IsFirstLeast cmp (if cmp b a = .lt then b else a) (as ++ [b]) := by
  split
  · -- The new element is less than the least one before, so less than all.
    rename_i hlt
    refine ⟨as, [], rfl, ?_, fun c hc => (by cases hc)⟩
    intro c hc
    exact Std.TransCmp.lt_of_lt_of_isLE hlt (h.isLE_of_mem hc)
  · rename_i hnot
    obtain ⟨before, after, rfl, hbefore, hafter⟩ := h
    refine ⟨before, after ++ [b], by simp, hbefore, ?_⟩
    intro c hc
    rcases List.mem_append.1 hc with hc | hc
    · exact hafter c hc
    · obtain rfl := List.mem_singleton.1 hc
      apply Std.OrientedCmp.isGE_iff_isLE.1
      cases hca : cmp c a with
      | lt => exact absurd hca hnot
      | _ => rfl

/-- The bound of a list with one more element. -/
theorem IsBound.append [Std.TransCmp cmp] {bound : Option α} {as : List α}
    (h : IsBound cmp bound as) (b : α) :
    IsBound cmp (some (bound.elim b fun a => if cmp b a = .lt then b else a)) (as ++ [b]) := by
  cases bound with
  | none =>
    obtain rfl : as = [] := h
    exact isFirstLeast_singleton cmp b
  | some a => exact IsFirstLeast.append h b

/-- A pass that takes over every smaller element ends at the first of the least ones. -/
theorem IsFirstLeast.foldl [Std.TransCmp cmp] {a : α} {seen : List α}
    (h : IsFirstLeast cmp a seen) (rest : List α) :
    IsFirstLeast cmp (rest.foldl (fun best b => if cmp b best = .lt then b else best) a)
      (seen ++ rest) := by
  induction rest generalizing a seen with
  | nil => rwa [List.append_nil]
  | cons b rest ih =>
    have hrest := ih (h.append b)
    rwa [List.append_assoc] at hrest

/-- The first of the least elements is the first one that is not greater than any. -/
theorem IsBound.eq_find? [Std.TransCmp cmp] {bound : Option α} {as : List α}
    (h : IsBound cmp bound as) : bound = as.find? fun a => as.all fun b => (cmp a b).isLE := by
  cases bound with
  | none =>
    obtain rfl : as = [] := h
    rfl
  | some a =>
    have hall : ∀ b ∈ as, (cmp a b).isLE := fun b hb => IsFirstLeast.isLE_of_mem h hb
    obtain ⟨before, after, rfl, hbefore, -⟩ := h
    rw [eq_comm, List.find?_eq_some_iff_append]
    refine ⟨List.all_eq_true.2 hall, before, after, rfl, fun b hb => ?_⟩
    -- What stands before is greater than the first of the least ones.
    have hgreater : cmp b a = .gt := Std.OrientedCmp.gt_iff_lt.2 (hbefore b hb)
    have hmem : a ∈ before ++ a :: after := List.mem_append_right before List.mem_cons_self
    rw [Bool.not_eq_true', List.all_eq_false]
    exact ⟨a, hmem, by rw [hgreater]; exact Bool.false_ne_true⟩

end Bounds

/-! ### Passes over a column -/

namespace Aggregate

variable {name : String} {column : List Value} {low high : Value}

theorem isBound_extreme?_lt (values : List Value) :
    IsBound Value.compareForSort (extreme? .lt values) values := by
  cases values with
  | nil => rfl
  | cons first rest =>
    simp only [extreme?, beq_iff_eq]
    exact (isFirstLeast_singleton _ first).foldl rest

theorem isBound_extreme?_gt (values : List Value) :
    IsBound (fun v w => w.compareForSort v) (extreme? .gt values) values := by
  cases values with
  | nil => rfl
  | cons first rest =>
    simp only [extreme?, beq_iff_eq, Std.OrientedCmp.gt_iff_lt]
    exact (isFirstLeast_singleton (fun v w => w.compareForSort v) first).foldl rest

theorem toOption_min (name : String) (column : List Value) :
    (min name column).toOption = extreme? .lt (present column) := by
  rw [min]
  cases extreme? .lt (present column) <;> rfl

theorem toOption_max (name : String) (column : List Value) :
    (max name column).toOption = extreme? .gt (present column) := by
  rw [max]
  cases extreme? .gt (present column) <;> rfl

/-- One pass for both extremes is two passes. -/
theorem foldl_widen (bounds : Value × Value) (rest : List Value) :
    rest.foldl widen bounds =
      (rest.foldl (fun best v => if v.compareForSort best == .lt then v else best) bounds.1,
        rest.foldl (fun best v => if v.compareForSort best == .gt then v else best) bounds.2) := by
  induction rest generalizing bounds with
  | nil => rfl
  | cons v rest ih => exact ih (widen bounds v)

theorem toOption_minMax_eq_some_iff : (minMax name column).toOption = some (low, high) ↔
    (min name column).toOption = some low ∧ (max name column).toOption = some high := by
  rw [toOption_min, toOption_max, minMax]
  cases present column with
  | nil => simp [extreme?, Except.toOption]
  | cons first rest => simp [extreme?, Except.toOption, foldl_widen]

end Aggregate

end RecordFlow
