import Mathlib.Logic.Relation
import RecordFlow.Proofs.Value.Equality

/-!
# Equality is a partial equivalence

The equality of filters puts three notions of equality together: scalars are equal when they compare
as equal, lists element by element, and structured values when they are the same field by field, in
any order. It is symmetric and transitive all the same, and a value is equal to itself exactly if
there is no NaN in it (`Value.equal_equivalence`). Sameness has these laws as well, and transitivity
across both kinds of numbers goes back to their keys (`Value.compare?_eq_trans`).
-/

namespace RecordFlow

namespace Value

/-! ### Scalars -/

/-- The value is a truth value, a number, a text or a timestamp. -/
def isScalar : Value → Bool
  | .null | .list _ | .struct _ => false
  | _ => true

theorem isScalar_of_parts? {v : Value} {p : Binary64 × Int} (h : v.parts? = some p) :
    v.isScalar := by
  obtain ⟨n, rfl, -⟩ | ⟨rfl, -⟩ := eq_of_parts? h <;> rfl

/-- Apart from two lists, only scalars compare. -/
theorem isScalar_of_compare? {a b : Value} {order : Ordering} (h : compare? a b = some order)
    (hlist : ∀ as bs, a = .list as → b ≠ .list bs) : a.isScalar ∧ b.isScalar := by
  obtain ⟨p, q, hp, hq⟩ | ⟨p, q, rfl, rfl⟩ | ⟨p, q, rfl, rfl⟩ | ⟨p, q, rfl, rfl⟩ |
    ⟨as, bs, rfl, rfl⟩ := compare?_cases h
  · exact ⟨isScalar_of_parts? hp, isScalar_of_parts? hq⟩
  · exact ⟨rfl, rfl⟩
  · exact ⟨rfl, rfl⟩
  · exact ⟨rfl, rfl⟩
  · exact (hlist as bs rfl rfl).elim

theorem equal_iff_of_isScalar {a : Value} (h : a.isScalar) (b : Value) :
    a.equal b ↔ compare? a b = some .eq := by
  cases a with
  | null | list | struct => cases h
  | _ => simp [equal]

/-- A scalar other than NaN has the key of what it compares as equal to. -/
theorem alike_iff_of_isScalar {a : Value} (h : a.isScalar) (hnan : a.isNaN = false) (b : Value) :
    Alike a b ↔ compare? a b = some .eq := by
  cases a with
  | null | list | struct => cases h
  | _ => simp [Alike, isNull, hnan]

/-- A scalar compares as equal to itself unless it is NaN. -/
theorem compare?_self_iff {v : Value} (h : v.isScalar) :
    compare? v v = some .eq ↔ v.isNaN = false := by
  constructor
  · exact fun heq => (isNaN_of_compare? heq).1
  · exact fun hnan => (alike_iff_of_isScalar h hnan v).1 (alike_iff_key_eq.2 rfl)

/-- Scalars that compare as equal to one value compare as equal: all of them have its key. -/
theorem compare?_eq_trans {a b c : Value} (ha : a.isScalar) (hab : compare? a b = some .eq)
    (hbc : compare? b c = some .eq) : compare? a c = some .eq := by
  have halike : Alike a c :=
    alike_iff_key_eq.2 ((key_eq_of_compare? hab).trans (key_eq_of_compare? hbc))
  exact (alike_iff_of_isScalar ha (isNaN_of_compare? hab).1 c).1 halike

/-! ### Transitivity -/

/-- Two relations along lists make a third one, if they do for the elements. -/
theorem forall₂_trans {R : Value → Value → Prop} {as bs cs : List Value}
    (htrans : ∀ b ∈ bs, ∀ a c, R a b → R b c → R a c) (hab : List.Forall₂ R as bs)
    (hbc : List.Forall₂ R bs cs) : List.Forall₂ R as cs := by
  induction hab generalizing cs with
  | nil => exact hbc
  | cons hab _ ih =>
    cases hbc with
    | cons hbc hrest =>
      exact .cons (htrans _ List.mem_cons_self _ _ hab hbc)
        (ih (fun b hb => htrans b (List.mem_cons_of_mem _ hb)) hrest)

theorem sameFields_trans {as bs cs : List (String × Value)}
    (htrans : ∀ b ∈ bs.map (·.2), ∀ a c, same a b → same b c → same a c)
    (hab : sameFields as bs) (hbc : sameFields bs cs) : sameFields as cs := by
  rw [sameFields_iff] at hab hbc ⊢
  intro field hfield
  obtain ⟨b, hb, hsame⟩ := hab field hfield
  have hmem := Attributes.mem_of_get?_eq_some hb
  obtain ⟨c, hc, hsame'⟩ := hbc _ hmem
  exact ⟨c, hc, htrans b (List.mem_map_of_mem hmem) _ _ hsame hsame'⟩

theorem same_trans {a b c : Value} (hab : same a b) (hbc : same b c) : same a c := by
  induction b using inner_induction generalizing a c with
  | step b ih =>
    fun_cases same a b with
    | case1 => exact hbc
    | case2 | case3 | case5 | case6 =>
      rw [same, beq_iff_eq] at hab
      rwa [hab]
    | case4 x y =>
      cases c with
      | float z =>
        rw [same, Binary64.numericallyEqual, beq_iff_eq] at hab hbc ⊢
        have hxy : compare? (float x) (float y) = some .eq := hab
        have hyz : compare? (float y) (float z) = some .eq := hbc
        exact compare?_eq_trans rfl hxy hyz
      | _ => simp [same] at hbc
    | case7 as bs =>
      cases c with
      | list cs =>
        rw [same, sameElements_iff] at hab hbc ⊢
        exact forall₂_trans (fun b hb a c => ih b hb) hab hbc
      | _ => simp [same] at hbc
    | case8 as bs =>
      cases c with
      | struct cs =>
        rw [same, Bool.and_eq_true, beq_iff_eq] at hab hbc ⊢
        exact ⟨hab.1.trans hbc.1, sameFields_trans (fun b hb a c => ih b hb) hab.2 hbc.2⟩
      | _ => simp [same] at hbc
    | case9 =>
      rw [same] at hab
      · cases hab
      all_goals assumption

theorem equal_trans {a b c : Value} (hab : equal a b) (hbc : equal b c) : equal a c := by
  induction b using inner_induction generalizing a c with
  | step b ih =>
    fun_cases equal a b with
    | case1 => exact hbc
    | case2 as bs =>
      cases c with
      | list cs =>
        rw [equal, equalElements_iff] at hab hbc ⊢
        exact forall₂_trans (fun b hb a c => ih b hb) hab hbc
      | _ => simp [equal, compare?] at hbc
    | case3 as bs =>
      cases c with
      | struct cs =>
        rw [equal] at hab hbc ⊢
        exact same_trans hab hbc
      | _ => simp [equal, compare?] at hbc
    | case4 a b hnull hlist hfields =>
      rw [equal, beq_iff_eq] at hab
      · obtain ⟨ha, hb⟩ := isScalar_of_compare? hab hlist
        rw [equal_iff_of_isScalar hb] at hbc
        rw [equal_iff_of_isScalar ha]
        exact compare?_eq_trans ha hab hbc
      all_goals assumption

/-! ### Values equal to themselves -/

theorem everywhere_iff {p : Value → Prop} {v : Value} :
    v.Everywhere p ↔ p v ∧ ∀ u ∈ v.inner, u.Everywhere p :=
  ⟨fun h => ⟨h.here, h.inside⟩, fun h => .intro v h.1 h.2⟩

theorem sameFields_self_iff {as : List (String × Value)} (h : (as.map (·.1)).Nodup) :
    sameFields as as ↔ ∀ v ∈ as.map (·.2), same v v := by
  rw [sameFields_iff, List.forall_mem_map]
  refine forall₂_congr fun field hfield => ?_
  have hfind : as.lookup field.1 = some field.2 := Attributes.get?_of_mem h hfield
  rw [hfind]
  simp

theorem same_self_iff {v : Value} (hv : v.WellFormed) :
    same v v ↔ v.Everywhere fun u => u.isNaN = false := by
  induction v using inner_induction with
  | step v ih =>
    have hinner : (∀ u ∈ v.inner, same u u) ↔
        ∀ u ∈ v.inner, u.Everywhere fun u => u.isNaN = false :=
      forall₂_congr fun u hu => ih u hu (hv.of_mem_inner hu)
    rw [everywhere_iff, ← hinner]
    cases v with
    | null | bool | int | text | timestamp => simp [same, isNaN, inner]
    | float x =>
      have hself : same (float x) (float x) ↔ compare? (float x) (float x) = some .eq := by
        rw [same, Binary64.numericallyEqual, beq_iff_eq]
        rfl
      rw [hself, compare?_self_iff rfl]
      simp [inner]
    | list as =>
      rw [same, sameElements_iff, List.forall₂_same]
      simp [isNaN, inner]
    | struct as =>
      rw [same, beq_self_eq_true, Bool.true_and, sameFields_self_iff hv.1]
      simp [isNaN, inner]

theorem equal_self_iff {v : Value} (hv : v.WellFormed) :
    equal v v ↔ v.Everywhere fun u => u.isNaN = false := by
  induction v using inner_induction with
  | step v ih =>
    cases v with
    | null =>
      rw [everywhere_iff]
      simp [equal, isNaN, inner]
    | bool | int | text | timestamp | float =>
      rw [equal_iff_of_isScalar rfl, compare?_self_iff rfl, everywhere_iff]
      simp [inner]
    | list as =>
      have hinner : (∀ a ∈ as, equal a a) ↔ ∀ a ∈ as, a.Everywhere fun u => u.isNaN = false :=
        forall₂_congr fun a ha => ih a ha (hv.of_mem_inner ha)
      rw [equal, equalElements_iff, List.forall₂_same, hinner, everywhere_iff]
      simp [isNaN, inner]
    | struct as => exact same_self_iff hv

/-! ### The laws -/

/-- Along a chain of equal values the first one is equal to the last one. -/
theorem equal_of_chain {a b : Value} (h : Relation.TransGen (fun u v => u.equal v) a b) :
    a.equal b := by
  induction h with
  | single h => exact h
  | tail _ h ih => exact equal_trans ih h

/-- The equality of filters is symmetric and transitive, also along any chain of equalities, and a
value is equal to itself exactly if there is no NaN in it. -/
theorem equal_equivalence (a b : ProperValue) (c : Value) :
    a.val.equal b.val = b.val.equal a.val ∧
    (a.val.equal b.val → b.val.equal c → a.val.equal c) ∧
    (Relation.TransGen (fun u v : Value => u.equal v) a.val b.val → a.val.equal b.val) ∧
    (a.val.equal a.val ↔ a.val.Everywhere fun v => v.isNaN = false) :=
  ⟨equal_comm a.property b.property, equal_trans, equal_of_chain, equal_self_iff a.property⟩

/-- A number and a structured value, in a list. -/
def numberAndFields (n : Value) (fields : List (String × Value)) : Value :=
  .list [n, .struct fields]

/-- Numbers of both kinds and fields in both orders: equal to one value, so equal to each other, and
each to itself. -/
theorem equal_equivalence_numberAndFields :
    (numberAndFields (.float .one) [("y", .null), ("x", .float .one)]).equal
      (numberAndFields (.int 1) [("x", .float .one), ("y", .null)]) ∧
    (numberAndFields (.int 1) [("x", .float .one), ("y", .null)]).equal
      (numberAndFields (.int 1) [("y", .null), ("x", .float .one)]) ∧
    (numberAndFields (.int 1) [("x", .float .one), ("y", .null)]).Everywhere
      (fun v => v.isNaN = false) := by
  obtain ⟨hswap, htrans, -, hself⟩ := equal_equivalence
    ⟨numberAndFields (.int 1) [("x", .float .one), ("y", .null)], by decide⟩
    ⟨numberAndFields (.float .one) [("y", .null), ("x", .float .one)], by decide⟩
    (numberAndFields (.int 1) [("y", .null), ("x", .float .one)])
  have hequal : (numberAndFields (.int 1) [("x", .float .one), ("y", .null)]).equal
      (numberAndFields (.float .one) [("y", .null), ("x", .float .one)]) := by decide +kernel
  exact ⟨hswap ▸ hequal, htrans hequal (by decide +kernel), hself.1 (by decide)⟩

end Value

end RecordFlow
