import Mathlib.Data.List.Perm.Subperm
import RecordFlow.Proofs.Value.KeyEquality

/-!
# Comparison from both sides

Values that change places compare in the reverse order, or do not compare again
(`Value.compare?_swap`). The equality of filters does not depend on the side either
(`Value.equal_comm`): a structured value equals another if each of its fields has its like in the
other, and where names are distinct and the fields as many, this holds from both sides.
-/

namespace RecordFlow

theorem Timestamp.compare_swap (a b : Timestamp) : b.compare a = (a.compare b).swap := by
  simp only [compare, Ordering.swap_then, Int.compare_swap, Nat.compare_swap]

namespace Value

/-! ### Order -/

theorem compareElements?_swap {as bs : List Value} {order : Ordering}
    (h : ∀ a ∈ as, ∀ b order, compare? a b = some order → compare? b a = some order.swap)
    (horder : compareElements? as bs = some order) :
    compareElements? bs as = some order.swap := by
  induction as generalizing bs with
  | nil => cases bs <;> cases horder <;> rfl
  | cons a as ih =>
    cases bs with
    | nil =>
      cases horder
      rfl
    | cons b bs =>
      rw [compareElements?] at horder ⊢
      cases hab : compare? a b with
      | none =>
        rw [hab] at horder
        cases horder
      | some first =>
        rw [h a List.mem_cons_self b first hab]
        rw [hab] at horder
        cases first with
        | lt | gt =>
          cases horder
          rfl
        | eq => exact ih (fun c hc => h c (List.mem_cons_of_mem a hc)) horder

theorem compare?_eq_some_swap {a b : Value} {order : Ordering} (h : compare? a b = some order) :
    compare? b a = some order.swap := by
  induction a using inner_induction generalizing b order with
  | step a ih =>
    obtain ⟨⟨x, m⟩, ⟨y, n⟩, ha, hb⟩ | ⟨p, q, rfl, rfl⟩ | ⟨s, t, rfl, rfl⟩ | ⟨t, u, rfl, rfl⟩ |
      ⟨as, bs, rfl, rfl⟩ := compare?_cases h
    · rw [compare?_of_parts ha hb] at h
      obtain rfl := Option.some.inj h
      rw [compare?_of_parts hb ha, Ordering.swap_then, Int.compare_swap, Int.compare_swap]
    · cases h
      rw [compare?, Nat.compare_swap]
    · cases h
      rw [compare?, compareBytes_swap]
    · cases h
      rw [compare?, Timestamp.compare_swap]
    · exact compareElements?_swap (fun a ha b order hab => ih a ha hab) h

theorem compare?_swap (a b : Value) : compare? b a = (compare? a b).map Ordering.swap := by
  cases hab : compare? a b with
  | some order => exact compare?_eq_some_swap hab
  | none =>
    cases hba : compare? b a with
    | none => rfl
    | some order =>
      rw [compare?_eq_some_swap hba] at hab
      cases hab

/-! ### Well-formed values -/

theorem elementsWellFormed_iff {elements : List Value} :
    ElementsWellFormed elements ↔ ∀ v ∈ elements, v.WellFormed := by
  induction elements with
  | nil => simp [ElementsWellFormed]
  | cons v elements ih => simp [ElementsWellFormed, ih]

theorem fieldsWellFormed_iff {fields : List (String × Value)} :
    FieldsWellFormed fields ↔ ∀ field ∈ fields, field.2.WellFormed := by
  induction fields with
  | nil => simp [FieldsWellFormed]
  | cons field fields ih => simp [FieldsWellFormed, ih]

theorem WellFormed.of_mem_inner {u v : Value} (hv : v.WellFormed) (h : u ∈ v.inner) :
    u.WellFormed := by
  cases v with
  | list elements => exact elementsWellFormed_iff.1 hv u h
  | struct fields =>
    obtain ⟨field, hfield, rfl⟩ := List.mem_map.1 h
    exact fieldsWellFormed_iff.1 hv.2 field hfield
  | _ => cases h

/-! ### Sameness -/

theorem sameFields_iff {as bs : List (String × Value)} :
    sameFields as bs ↔ ∀ field ∈ as, ∃ b, bs.lookup field.1 = some b ∧ same field.2 b := by
  induction as with
  | nil => simp [sameFields]
  | cons field as ih =>
    obtain ⟨name, a⟩ := field
    rw [sameFields, Bool.and_eq_true, List.forall_mem_cons, ih]
    cases bs.lookup name <;> simp

/-- A record with distinct names whose fields are in a record of as many has the names of that. -/
theorem names_perm_of_sameFields {as bs : List (String × Value)} (has : (as.map (·.1)).Nodup)
    (hlength : as.length = bs.length) (h : sameFields as bs) :
    (as.map (·.1)).Perm (bs.map (·.1)) := by
  have hsubset : as.map (·.1) ⊆ bs.map (·.1) := by
    intro name hname
    obtain ⟨field, hfield, rfl⟩ := List.mem_map.1 hname
    obtain ⟨b, hb, -⟩ := sameFields_iff.1 h field hfield
    exact List.mem_map.2 ⟨_, Attributes.mem_of_get?_eq_some hb, rfl⟩
  exact (List.subperm_of_subset has hsubset).perm_of_length_le (by simp [hlength])

/-- Of two records with distinct names and as many fields, both have the same fields if one has the
fields of the other. -/
theorem sameFields_symm {as bs : List (String × Value)} (has : (as.map (·.1)).Nodup)
    (hbs : (bs.map (·.1)).Nodup) (hlength : as.length = bs.length)
    (hsame : ∀ a ∈ as.map (·.2), ∀ b ∈ bs.map (·.2), same a b → same b a)
    (h : sameFields as bs) : sameFields bs as := by
  have hperm := names_perm_of_sameFields has hlength h
  rw [sameFields_iff] at h ⊢
  rintro ⟨name, b⟩ hb
  obtain ⟨⟨_, a⟩, ha, rfl⟩ := List.mem_map.1 (hperm.mem_iff.2 (List.mem_map_of_mem hb))
  obtain ⟨b', hb', hab⟩ := h _ ha
  obtain rfl : b = b' := Option.some.inj ((Attributes.get?_of_mem hbs hb).symm.trans hb')
  exact ⟨a, Attributes.get?_of_mem has ha,
    hsame a (List.mem_map_of_mem ha) b (List.mem_map_of_mem hb) hab⟩

theorem sameElements_iff {as bs : List Value} :
    sameElements as bs ↔ List.Forall₂ (fun a b => same a b) as bs := by
  induction as generalizing bs with
  | nil => cases bs <;> simp [sameElements]
  | cons a as ih => cases bs <;> simp [sameElements, ih]

/-- A relation that holds along two lists holds from the other side, if it does for their
elements. -/
theorem forall₂_symm {R : Value → Value → Prop} {as bs : List Value}
    (hsymm : ∀ a ∈ as, ∀ b ∈ bs, R a b → R b a) (h : List.Forall₂ R as bs) :
    List.Forall₂ R bs as := by
  induction h with
  | nil => exact .nil
  | cons hab _ ih =>
    refine .cons (hsymm _ List.mem_cons_self _ List.mem_cons_self hab) (ih fun c hc d hd => ?_)
    exact hsymm c (List.mem_cons_of_mem _ hc) d (List.mem_cons_of_mem _ hd)

theorem same_symm {a b : Value} (ha : a.WellFormed) (hb : b.WellFormed) (h : same a b) :
    same b a := by
  induction a using inner_induction generalizing b with
  | step a ih =>
    fun_cases same a b with
    | case1 => rfl
    | case2 | case3 | case5 | case6 =>
      rw [same, beq_iff_eq] at h ⊢
      exact h.symm
    | case4 x y =>
      have horder : compare? (float x) (float y) = some .eq := beq_iff_eq.1 h
      exact beq_iff_eq.2 (compare?_eq_some_swap horder)
    | case7 as bs =>
      refine sameElements_iff.2 (forall₂_symm (fun a ha' b hb' => ih a ha' ?_ ?_)
        (sameElements_iff.1 h))
      · exact ha.of_mem_inner ha'
      · exact hb.of_mem_inner hb'
    | case8 as bs =>
      rw [same, Bool.and_eq_true, beq_iff_eq] at h ⊢
      refine ⟨h.1.symm, sameFields_symm ha.1 hb.1 h.1 (fun a ha' b hb' => ih a ha' ?_ ?_) h.2⟩
      · exact ha.of_mem_inner ha'
      · exact hb.of_mem_inner hb'
    | case9 =>
      rw [same] at h
      · cases h
      all_goals assumption

/-! ### The equality of filters -/

theorem equalElements_iff {as bs : List Value} :
    equalElements as bs ↔ List.Forall₂ (fun a b => equal a b) as bs := by
  induction as generalizing bs with
  | nil => cases bs <;> simp [equalElements]
  | cons a as ih => cases bs <;> simp [equalElements, ih]

theorem equal_symm {a b : Value} (ha : a.WellFormed) (hb : b.WellFormed) (h : equal a b) :
    equal b a := by
  induction a using inner_induction generalizing b with
  | step a ih =>
    fun_cases equal a b with
    | case1 => rfl
    | case2 as bs =>
      refine equalElements_iff.2 (forall₂_symm (fun a ha' b hb' => ih a ha' ?_ ?_)
        (equalElements_iff.1 h))
      · exact ha.of_mem_inner ha'
      · exact hb.of_mem_inner hb'
    | case3 as bs => exact same_symm ha hb h
    | case4 a b hnull hlist hfields =>
      rw [equal, beq_iff_eq] at h
      · rw [equal, compare?_eq_some_swap h]
        · rfl
        · exact fun hb ha => hnull ha hb
        · exact fun bs as hb ha => hlist as bs ha hb
        · exact fun bs as hb ha => hfields as bs ha hb
      all_goals assumption

/-- The side does not matter to the equality of filters. -/
theorem equal_comm {a b : Value} (ha : a.WellFormed) (hb : b.WellFormed) : equal a b = equal b a :=
  Bool.eq_iff_iff.2 ⟨equal_symm ha hb, equal_symm hb ha⟩

end Value

end RecordFlow
