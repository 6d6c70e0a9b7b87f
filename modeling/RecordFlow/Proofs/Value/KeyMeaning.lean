import Mathlib.Data.List.Forall2
import RecordFlow.Proofs.Value.NumberOrder

/-!
# What a key identifies

`Value.Equivalent` says, without the order of values, which values one key stands for: numbers of
one exact value, whatever their kind, and otherwise the same content all the way down. A number is
told by its exact value, because numbers compare as equal exactly if they have the same
(`Value.compare?_eq_iff_exactValue?`).

Keys can be put behind one another. What follows a key begins with no byte that could continue it
(`Value.canFollow_flatMap_key`), so the keys of a list of values, without any mark between them,
tell the key of every value in it (`Value.flatMap_key_eq_iff_map`), and with it the value up to
equivalence (`Value.key_identifies`).
-/

namespace RecordFlow

namespace Value

/-- Two values that mean the same for a grouping. -/
inductive Equivalent : Value → Value → Prop
  | null : Equivalent .null .null
  | bool (b : Bool) : Equivalent (.bool b) (.bool b)
  /-- Numbers of one exact value, be they integers or not. -/
  | number {a b : Value} {x : ExactNumber} (ha : a.exactValue? = some x)
    (hb : b.exactValue? = some x) : Equivalent a b
  | nan {x y : Binary64} (hx : x.isNaN) (hy : y.isNaN) : Equivalent (.float x) (.float y)
  | text (s : String) : Equivalent (.text s) (.text s)
  | timestamp (t : Timestamp) : Equivalent (.timestamp t) (.timestamp t)
  | list {as bs : List Value} (h : List.Forall₂ Equivalent as bs) :
    Equivalent (.list as) (.list bs)
  /-- Fields of the same names in the same order. -/
  | struct {as bs : List (String × Value)} (hnames : as.map (·.1) = bs.map (·.1))
    (h : List.Forall₂ Equivalent (as.map (·.2)) (bs.map (·.2))) :
    Equivalent (.struct as) (.struct bs)

/-! ### Values that are alike -/

theorem equivalent_list_iff {as bs : List Value} :
    Equivalent (.list as) (.list bs) ↔ List.Forall₂ Equivalent as bs := by
  constructor
  · rintro (_ | _ | ⟨ha, -⟩ | _ | _ | _ | h)
    · cases ha
    · exact h
  · exact .list

theorem equivalent_struct_iff {as bs : List (String × Value)} :
    Equivalent (.struct as) (.struct bs) ↔
      as.map (·.1) = bs.map (·.1) ∧ List.Forall₂ Equivalent (as.map (·.2)) (bs.map (·.2)) := by
  constructor
  · rintro (_ | _ | ⟨ha, -⟩ | _ | _ | _ | _ | ⟨hnames, h⟩)
    · cases ha
    · exact ⟨hnames, h⟩
  · exact fun ⟨hnames, h⟩ => .struct hnames h

theorem elementsAlike_iff {as bs : List Value}
    (h : ∀ a ∈ as, ∀ b, Alike a b ↔ Equivalent a b) :
    ElementsAlike as bs ↔ List.Forall₂ Equivalent as bs := by
  induction as generalizing bs with
  | nil => cases bs <;> simp [ElementsAlike]
  | cons a as ih =>
    cases bs with
    | nil => simp [ElementsAlike]
    | cons b bs =>
      rw [ElementsAlike, List.forall₂_cons, h a List.mem_cons_self b,
        ih fun c hc => h c (List.mem_cons_of_mem a hc)]

theorem fieldsAlike_iff {as bs : List (String × Value)}
    (h : ∀ field ∈ as, ∀ b, Alike field.2 b ↔ Equivalent field.2 b) :
    FieldsAlike as bs ↔
      as.map (·.1) = bs.map (·.1) ∧ List.Forall₂ Equivalent (as.map (·.2)) (bs.map (·.2)) := by
  induction as generalizing bs with
  | nil => cases bs <;> simp [FieldsAlike]
  | cons first as ih =>
    cases bs with
    | nil => simp [FieldsAlike]
    | cons second bs =>
      obtain ⟨m, a⟩ := first
      obtain ⟨n, b⟩ := second
      rw [FieldsAlike, h (m, a) List.mem_cons_self b,
        ih fun field hfield => h field (List.mem_cons_of_mem _ hfield)]
      simp only [List.map_cons, List.cons.injEq, List.forall₂_cons]
      tauto

theorem equivalent_of_compare? {a b : Value} (h : compare? a b = some .eq)
    (hlist : ∀ as bs, a = .list as → b ≠ .list bs) : Equivalent a b := by
  obtain ⟨p, q, ha, hb⟩ | ⟨p, q, rfl, rfl⟩ | ⟨p, q, rfl, rfl⟩ | ⟨p, q, rfl, rfl⟩ |
    ⟨as, bs, rfl, rfl⟩ := compare?_cases h
  · obtain ⟨x, hx⟩ := exists_exactValue?_of_parts ha
    obtain ⟨y, hy⟩ := exists_exactValue?_of_parts hb
    obtain rfl := (compare?_eq_iff_exactValue? hx hy).1 h
    exact .number hx hy
  · obtain rfl : p = q := by
      cases p <;> cases q <;> first | rfl | cases h
    exact .bool p
  · obtain rfl := utf8Bytes_inj (compareBytes_eq_eq_iff.1 (Option.some.inj h))
    exact .text p
  · obtain rfl := Timestamp.compare_eq_eq_iff.1 (Option.some.inj h)
    exact .timestamp p
  · exact (hlist as bs rfl rfl).elim

theorem alike_iff_equivalent {a b : Value} : Alike a b ↔ Equivalent a b := by
  induction a using inner_induction generalizing b with
  | step a ih =>
    fun_cases Alike a b with
    | case1 as bs =>
      rw [equivalent_list_iff]
      exact elementsAlike_iff fun a ha b => ih a ha
    | case2 as bs =>
      rw [equivalent_struct_iff]
      exact fieldsAlike_iff fun field hfield b => ih field.2 (List.mem_map_of_mem hfield)
    | case3 a b hlist hstruct =>
      constructor
      · rintro (⟨ha, hb⟩ | ⟨ha, hb⟩ | heq)
        · rw [eq_null_of_isNull ha, eq_null_of_isNull hb]
          exact .null
        · obtain ⟨x, rfl, hx⟩ := exists_float_of_isNaN ha
          obtain ⟨y, rfl, hy⟩ := exists_float_of_isNaN hb
          exact .nan hx hy
        · exact equivalent_of_compare? heq hlist
      · intro h
        cases h with
        | null => exact .inl ⟨rfl, rfl⟩
        | bool p => exact .inr (.inr (congrArg some (Nat.compare_eq_eq.2 rfl)))
        | number ha hb => exact .inr (.inr ((compare?_eq_iff_exactValue? ha hb).2 rfl))
        | nan hx hy => exact .inr (.inl ⟨hx, hy⟩)
        | text s => exact .inr (.inr (congrArg some (compareBytes_self _)))
        | timestamp t => exact .inr (.inr (congrArg some (Timestamp.compare_eq_eq_iff.2 rfl)))
        | list h => exact (hlist _ _ rfl rfl).elim
        | struct hnames h => exact (hstruct _ _ rfl rfl).elim

theorem equivalent_iff_key_eq {a b : Value} : Equivalent a b ↔ a.key = b.key :=
  alike_iff_equivalent.symm.trans alike_iff_key_eq

/-! ### Keys behind one another -/

theorem lead_bounds (v : Value) : v.lead ≠ 0x00 ∧ v.lead ≠ 0xFF := by
  cases v with
  | bool b => cases b <;> decide
  | float x =>
    rw [lead]
    split <;> decide
  | _ => simp only [lead]; decide

/-- Further keys can follow a key. -/
theorem canFollow_flatMap_key (as : List Value) : CanFollow (as.flatMap key) := by
  intro b hb
  cases as with
  | nil => cases hb
  | cons a as =>
    obtain ⟨rest, hkey⟩ := key_eq_lead_cons a
    rw [List.flatMap_cons, hkey] at hb
    obtain rfl := Option.some.inj hb
    exact a.lead_bounds

theorem key_ne_nil (v : Value) : v.key ≠ [] := by
  obtain ⟨rest, hkey⟩ := key_eq_lead_cons v
  rw [hkey]
  exact List.cons_ne_nil _ _

/-- Nothing has to stand between keys: put behind one another they tell every one of them. -/
theorem flatMap_key_eq_iff_map {as bs : List Value} :
    as.flatMap key = bs.flatMap key ↔ as.map key = bs.map key := by
  constructor
  · intro h
    induction as generalizing bs with
    | nil =>
      cases bs with
      | nil => rfl
      | cons b bs => exact absurd (List.append_eq_nil_iff.1 h.symm).1 b.key_ne_nil
    | cons a as ih =>
      cases bs with
      | nil => exact absurd (List.append_eq_nil_iff.1 h).1 a.key_ne_nil
      | cons b bs =>
        obtain ⟨hab, hrest⟩ :=
          decodes a b _ _ (canFollow_flatMap_key as) (canFollow_flatMap_key bs) h
        rw [List.map_cons, List.map_cons, key_eq_of_alike hab, ih hrest]
  · intro h
    rw [List.flatMap_def, List.flatMap_def, h]

/-- The key of a value can begin that of another one. -/
example : (struct []).key <+: (struct [("", .null)]).key := by decide

/-- The keys of two lists of values, put behind one another, are equal exactly if the lists are
equivalent value by value, and two values share a key exactly if they are equivalent. -/
theorem key_identifies :
    (∀ as bs : List Value,
      as.flatMap key = bs.flatMap key ↔ List.Forall₂ Equivalent as bs) ∧
    ∀ a b : Value, a.key = b.key ↔ Equivalent a b := by
  refine ⟨fun as bs => ?_, fun a b => equivalent_iff_key_eq.symm⟩
  have hequivalent : Equivalent = fun a b => a.key = b.key := by
    funext a b
    exact propext equivalent_iff_key_eq
  rw [flatMap_key_eq_iff_map, hequivalent, ← List.forall₂_eq_eq_eq, List.forall₂_map_left_iff,
    List.forall₂_map_right_iff]

end Value

end RecordFlow
