import RecordFlow.Proofs.Value.EqualityLaws
import RecordFlow.Query.Operator

/-!
# The order of two operands

The four orderings of filters ask for the order of their operands, while the equality operator has
a recursion of its own: it calls NULLs and structured values equal, which are in no order, also
inside of lists. Where two values are in an order the two agree (`Value.equal_iff_of_compare?`).
So the comparison operators cohere for any operands, whichever of them is a text that is read as a
timestamp (`Operator.comparisons_cohere`).
-/

namespace RecordFlow

namespace Value

theorem equalElements_iff_of_compareElements? {as bs : List Value} {order : Ordering}
    (h : ∀ a ∈ as, ∀ b order, compare? a b = some order → (a.equal b ↔ order = .eq))
    (horder : compareElements? as bs = some order) : equalElements as bs ↔ order = .eq := by
  induction as generalizing bs with
  | nil => cases bs <;> cases horder <;> simp [equalElements]
  | cons a as ih =>
    cases bs with
    | nil =>
      cases horder
      simp [equalElements]
    | cons b bs =>
      rw [compareElements?] at horder
      rw [equalElements, Bool.and_eq_true]
      cases hab : compare? a b with
      | none =>
        rw [hab] at horder
        cases horder
      | some first =>
        rw [h a List.mem_cons_self b first hab]
        rw [hab] at horder
        cases first with
        | lt | gt =>
          cases horder
          simp
        | eq =>
          rw [ih (fun c hc => h c (List.mem_cons_of_mem a hc)) horder]
          simp

/-- Values that are in an order are equal exactly if neither comes before the other. -/
theorem equal_iff_of_compare? {a b : Value} {order : Ordering} (h : compare? a b = some order) :
    a.equal b ↔ order = .eq := by
  induction a using inner_induction generalizing b order with
  | step a ih =>
    by_cases hlists : ∃ as bs, a = .list as ∧ b = .list bs
    · obtain ⟨as, bs, rfl, rfl⟩ := hlists
      rw [equal]
      exact equalElements_iff_of_compareElements? (fun a ha b order => ih a ha) h
    · have hscalar : a.isScalar :=
        (isScalar_of_compare? h fun as bs ha hb => hlists ⟨as, bs, ha, hb⟩).1
      rw [equal_iff_of_isScalar hscalar, h, Option.some_inj]

end Value

namespace Query

/-! ### Operands read alike -/

/-- It does not matter on which side the text stands. -/
theorem alignTemporal_swap (left right : Value) :
    alignTemporal right left = (alignTemporal left right).swap := by
  fun_cases alignTemporal left right with
  | case1 t s u h | case2 t s h | case3 s t u h | case4 s t h => simp [alignTemporal, h]
  | case5 left right hleft hright =>
    rw [alignTemporal]
    · rfl
    · exact fun t s hr hl => hright s t hl hr
    · exact fun s t hr hl => hleft t s hl hr

theorem wellFormed_alignTemporal {left right : Value} (hleft : left.WellFormed)
    (hright : right.WellFormed) :
    (alignTemporal left right).1.WellFormed ∧ (alignTemporal left right).2.WellFormed := by
  fun_cases alignTemporal left right with
  | case1 => exact ⟨hleft, trivial⟩
  | case3 => exact ⟨trivial, hright⟩
  | case2 | case4 | case5 => exact ⟨hleft, hright⟩

namespace Operator

/-- The order of two operands, a text beside a timestamp being read as one where it can be. -/
def order? (left right : Value) : Option Ordering :=
  (alignTemporal left right).1.compare? (alignTemporal left right).2

theorem order?_swap (left right : Value) :
    order? right left = (order? left right).map Ordering.swap := by
  rw [order?, alignTemporal_swap]
  exact Value.compare?_swap _ _

theorem eq_apply_comm {left right : Value} (hleft : left.WellFormed) (hright : right.WellFormed) :
    eq.apply left right = eq.apply right left := by
  obtain ⟨hl, hr⟩ := wellFormed_alignTemporal hleft hright
  have hcomm := Value.equal_comm hl hr
  rw [apply, apply, alignTemporal_swap left right]
  exact hcomm

/-- What the comparisons say of operands that are in an order. -/
theorem apply_of_order? {left right : Value} {order : Ordering}
    (h : order? left right = some order) :
    lt.apply left right = (order == .lt) ∧ eq.apply left right = (order == .eq) ∧
      gt.apply left right = (order == .gt) ∧ ltEq.apply left right = (order != .gt) := by
  have hequal : (alignTemporal left right).1.equal (alignTemporal left right).2 =
      (order == .eq) := by
    rw [Bool.eq_iff_iff, beq_iff_eq]
    exact Value.equal_iff_of_compare? h
  rw [order?] at h
  simp only [apply, applyAligned, h, hequal, Option.any_some, and_self]

/-- Operands that are in no order may be equal; nothing else holds of them. -/
theorem apply_of_order?_eq_none {left right : Value} (h : order? left right = none) :
    lt.apply left right = false ∧ gt.apply left right = false ∧ ltEq.apply left right = false := by
  rw [order?] at h
  simp only [apply, applyAligned, h, Option.any_none, and_self]

/-- Operands that change places turn `<` into `>` and `<=` into `>=`. -/
theorem apply_swap (left right : Value) :
    gt.apply right left = lt.apply left right ∧ gtEq.apply right left = ltEq.apply left right := by
  have hgt : gt.apply right left = (order? right left).any (· == .gt) := rfl
  have hgtEq : gtEq.apply right left = (order? right left).any (· != .lt) := rfl
  rw [hgt, hgtEq, order?_swap]
  cases horder : order? left right with
  | none =>
    obtain ⟨hlt, -, hltEq⟩ := apply_of_order?_eq_none horder
    rw [hlt, hltEq]
    exact ⟨rfl, rfl⟩
  | some order =>
    obtain ⟨hlt, -, -, hltEq⟩ := apply_of_order? horder
    rw [hlt, hltEq]
    cases order <;> exact ⟨rfl, rfl⟩

/-- At most one of `<`, `==` and `>` holds of two operands; operands that change places turn `<`
into `>` and `<=` into `>=`; `<=` holds if `<` does, and of equal operands if these are in an order;
the side does not matter to `==`, and `!=` is its negation. -/
theorem comparisons_cohere (a b : ProperValue) :
    let left := a.val
    let right := b.val
    [lt.apply left right, eq.apply left right, gt.apply left right].count true ≤ 1 ∧
    (lt.apply left right ↔ gt.apply right left) ∧
    (ltEq.apply left right ↔ gtEq.apply right left) ∧
    (ltEq.apply left right ↔
      lt.apply left right ∨ eq.apply left right ∧ (order? left right).isSome) ∧
    eq.apply left right = eq.apply right left ∧
    notEq.apply left right = !eq.apply left right := by
  intro left right
  obtain ⟨hgt, hgtEq⟩ := apply_swap left right
  refine ⟨?atMostOne, Bool.eq_iff_iff.1 hgt.symm, Bool.eq_iff_iff.1 hgtEq.symm, ?ltEq,
    eq_apply_comm a.property b.property, rfl⟩
  case atMostOne =>
    cases horder : order? left right with
    | none =>
      obtain ⟨hlt, hgt, -⟩ := apply_of_order?_eq_none horder
      rw [hlt, hgt]
      cases eq.apply left right <;> decide
    | some order =>
      obtain ⟨hlt, heq, hgt, -⟩ := apply_of_order? horder
      rw [hlt, heq, hgt]
      cases order <;> decide
  case ltEq =>
    cases horder : order? left right with
    | none =>
      obtain ⟨hlt, -, hltEq⟩ := apply_of_order?_eq_none horder
      simp [hlt, hltEq]
    | some order =>
      obtain ⟨hlt, heq, -, hltEq⟩ := apply_of_order? horder
      rw [hlt, heq, hltEq]
      cases order <;> decide

/-- Lists of a number, NULL and fields, which stand in another order in the second one. -/
def unorderedLists : Value × Value :=
  (.list [.int 1, .null, .struct [("x", .int 2), ("y", .null)]],
    .list [.int 1, .null, .struct [("y", .null), ("x", .int 2)]])

/-- A text and the timestamp of the day after. -/
def dayAndNext : Value × Value :=
  (.text "2021-02-28", .timestamp ⟨⟨2021, 3, 1, by decide, by decide, by decide⟩, .midnight⟩)

/-- Equal operands of which neither `<=` nor `>=` holds, and operands one of which is read. -/
theorem comparisons_cohere_unorderedLists :
    (eq.apply unorderedLists.1 unorderedLists.2 ∧ eq.apply unorderedLists.2 unorderedLists.1 ∧
      ltEq.apply unorderedLists.1 unorderedLists.2 = false ∧
      gtEq.apply unorderedLists.2 unorderedLists.1 = false) ∧
    lt.apply dayAndNext.1 dayAndNext.2 ∧ gt.apply dayAndNext.2 dayAndNext.1 := by
  have hequal : eq.apply unorderedLists.1 unorderedLists.2 := by decide
  have hlt : lt.apply unorderedLists.1 unorderedLists.2 = false := by decide
  have horder : order? unorderedLists.1 unorderedLists.2 = none := by decide
  obtain ⟨-, -, hswap, hltEq, hcomm, -⟩ :=
    comparisons_cohere ⟨unorderedLists.1, by decide⟩ ⟨unorderedLists.2, by decide⟩
  have hnot : ltEq.apply unorderedLists.1 unorderedLists.2 = false := by
    rw [Bool.eq_false_iff, Ne, hltEq, hlt, horder]
    simp
  obtain ⟨-, hdaySwap, -⟩ := comparisons_cohere ⟨dayAndNext.1, trivial⟩ ⟨dayAndNext.2, trivial⟩
  have hday : lt.apply dayAndNext.1 dayAndNext.2 := by decide +kernel
  refine ⟨⟨hequal, hcomm ▸ hequal, hnot, ?_⟩, hday, hdaySwap.1 hday⟩
  exact Bool.eq_false_iff.2 fun h => Bool.eq_false_iff.1 hnot (hswap.2 h)

end Operator

end Query

end RecordFlow
