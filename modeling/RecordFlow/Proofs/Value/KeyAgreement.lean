import RecordFlow.Proofs.Value.EqualityLaws

/-!
# Where equality and keys agree

The equality of filters and the keys of groups are two recursions over values. Both merge the two
kinds of numbers at the top and in lists. Inside structured values the keys still do, but sameness
keeps the kinds apart; and keys write the fields in their order, which sameness does not look at.
Values `Conform` when neither difference can show: at every place that both have, structured values
of the same names have them in the same order, and numbers inside structured values are of one kind.
On such values without NaN, equality and keys agree (`Value.equal_iff_key_eq`).
-/

namespace RecordFlow

namespace Value

mutual

/-- At every place that two values both have, structured values of the same names have them in the
same order, and numbers are of one kind if the place is inside a structured value. -/
def Conform (inside : Bool) : Value → Value → Prop
  | .int _, .float _ | .float _, .int _ => inside = false
  | .list as, .list bs => ElementsConform inside as bs
  | .struct as, .struct bs =>
    (as.map (·.1)).Perm (bs.map (·.1)) → as.map (·.1) = bs.map (·.1) ∧ FieldsConform as bs
  | _, _ => True

def ElementsConform (inside : Bool) : List Value → List Value → Prop
  | a :: as, b :: bs => Conform inside a b ∧ ElementsConform inside as bs
  | _, _ => True

def FieldsConform : List (String × Value) → List (String × Value) → Prop
  | (_, a) :: as, (_, b) :: bs => Conform true a b ∧ FieldsConform as bs
  | _, _ => True

end

/-! ### Sameness along fields -/

/-- Names that are distinct lead each field to its like at the same place. -/
theorem sameFields_iff_forall₂ {as bs : List (String × Value)}
    (hnames : as.map (·.1) = bs.map (·.1)) (hnodup : (as.map (·.1)).Nodup) :
    sameFields as bs ↔ List.Forall₂ (fun a b => same a.2 b.2) as bs := by
  have hlength : as.length = bs.length := by simpa using congrArg List.length hnames
  have hlookup {i : Nat} (ha : i < as.length) (hb : i < bs.length) :
      bs.lookup as[i].1 = some bs[i].2 := by
    have hname : as[i].1 = bs[i].1 := by
      have hget : (as.map (·.1))[i]? = (bs.map (·.1))[i]? := by rw [hnames]
      simpa [ha, hb] using hget
    have hnodup' : (bs.map (·.1)).Nodup := by rwa [← hnames]
    rw [hname]
    exact Attributes.get?_of_mem hnodup' (List.getElem_mem hb)
  rw [sameFields_iff, List.forall₂_iff_get]
  constructor
  · intro h
    refine ⟨hlength, fun i ha hb => ?_⟩
    obtain ⟨b, hfind, hsame⟩ := h _ (List.getElem_mem ha)
    rw [hlookup ha hb] at hfind
    obtain rfl := Option.some.inj hfind
    exact hsame
  · rintro ⟨-, h⟩ field hfield
    obtain ⟨i, ha, rfl⟩ := List.getElem_of_mem hfield
    have hb : i < bs.length := hlength ▸ ha
    exact ⟨_, hlookup ha hb, h i ha hb⟩

/-! ### Agreement -/

/-- Scalars of one kind are the same if they compare as equal. -/
theorem same_iff_of_isScalar {a b : Value} (h : a.isScalar) (hconform : Conform true a b) :
    same a b ↔ compare? a b = some .eq := by
  cases a with
  | null | list | struct => cases h
  | bool p =>
    cases b with
    | bool q => cases p <;> cases q <;> decide
    | _ => simp [same, compare?]
  | int m =>
    cases b with
    | int n => simp [same, compare?, Int64.toInt_inj]
    | float y => cases hconform
    | _ => simp [same, compare?]
  | float x =>
    cases b with
    | int n => cases hconform
    | float y => simp [same, compare?, Binary64.numericallyEqual]
    | _ => simp [same, compare?]
  | text s =>
    cases b with
    | text t =>
      rw [same, compare?, beq_iff_eq, Option.some_inj, compareBytes_eq_eq_iff]
      exact ⟨congrArg utf8Bytes, utf8Bytes_inj⟩
    | _ => simp [same, compare?]
  | timestamp t =>
    cases b with
    | timestamp u => simp [same, compare?, Timestamp.compare_eq_eq_iff]
    | _ => simp [same, compare?]

/-- A relation that agrees with the keys on conforming elements agrees with them on lists. -/
theorem forall₂_iff_elementsAlike {R : Value → Value → Prop} {inside : Bool} {as bs : List Value}
    (h : ∀ a ∈ as, ∀ b, Conform inside a b → (R a b ↔ Alike a b))
    (hconform : ElementsConform inside as bs) : List.Forall₂ R as bs ↔ ElementsAlike as bs := by
  induction as generalizing bs with
  | nil => cases bs <;> simp [ElementsAlike]
  | cons a as ih =>
    cases bs with
    | nil => simp [ElementsAlike]
    | cons b bs =>
      rw [List.forall₂_cons, ElementsAlike, h a List.mem_cons_self b hconform.1,
        ih (fun c hc => h c (List.mem_cons_of_mem a hc)) hconform.2]

theorem forall₂_iff_fieldsAlike {as bs : List (String × Value)}
    (h : ∀ field ∈ as, ∀ b, Conform true field.2 b → (same field.2 b ↔ Alike field.2 b))
    (hnames : as.map (·.1) = bs.map (·.1)) (hconform : FieldsConform as bs) :
    List.Forall₂ (fun a b => same a.2 b.2) as bs ↔ FieldsAlike as bs := by
  induction as generalizing bs with
  | nil => cases bs <;> simp [FieldsAlike]
  | cons first as ih =>
    cases bs with
    | nil => simp [FieldsAlike]
    | cons second bs =>
      obtain ⟨hname, hrest⟩ := List.cons.inj hnames
      rw [List.forall₂_cons, FieldsAlike, h first List.mem_cons_self second.2 hconform.1,
        ih (fun c hc => h c (List.mem_cons_of_mem _ hc)) hrest hconform.2, and_iff_right hname]

theorem elementsConform_of_forall {inside : Bool} {as bs : List Value}
    (h : ∀ a ∈ as, ∀ b, Conform inside a b) : ElementsConform inside as bs := by
  induction as generalizing bs with
  | nil => trivial
  | cons a as ih =>
    cases bs with
    | nil => trivial
    | cons b bs =>
      exact ⟨h a List.mem_cons_self b, ih fun c hc => h c (List.mem_cons_of_mem a hc)⟩

theorem names_eq_of_fieldsAlike {as bs : List (String × Value)} (h : FieldsAlike as bs) :
    as.map (·.1) = bs.map (·.1) := by
  induction as generalizing bs with
  | nil =>
    cases bs with
    | nil => rfl
    | cons second bs => cases h
  | cons first as ih =>
    cases bs with
    | nil => cases h
    | cons second bs =>
      obtain ⟨hname, -, hrest⟩ := h
      rw [List.map_cons, List.map_cons, hname, ih hrest]

theorem same_struct_iff_fieldsAlike {as bs : List (String × Value)}
    (hnodup : (as.map (·.1)).Nodup)
    (h : ∀ field ∈ as, ∀ b, Conform true field.2 b → (same field.2 b ↔ Alike field.2 b))
    (hconform : Conform true (.struct as) (.struct bs)) :
    same (.struct as) (.struct bs) ↔ FieldsAlike as bs := by
  rw [same, Bool.and_eq_true, beq_iff_eq]
  constructor
  · rintro ⟨hlength, hsame⟩
    obtain ⟨hnames, hfields⟩ := hconform (names_perm_of_sameFields hnodup hlength hsame)
    exact (forall₂_iff_fieldsAlike h hnames hfields).1
      ((sameFields_iff_forall₂ hnames hnodup).1 hsame)
  · intro halike
    have hnames := names_eq_of_fieldsAlike halike
    obtain ⟨-, hfields⟩ := hconform (.of_eq hnames)
    exact ⟨by simpa using congrArg List.length hnames,
      (sameFields_iff_forall₂ hnames hnodup).2
        ((forall₂_iff_fieldsAlike h hnames hfields).2 halike)⟩

/-- Inside structured values, sameness agrees with keys on values that conform. -/
theorem same_iff_alike {a b : Value} (hwell : a.WellFormed)
    (hnan : a.Everywhere fun v => v.isNaN = false) (h : Conform true a b) :
    same a b ↔ Alike a b := by
  induction a using inner_induction generalizing b with
  | step a ih =>
    have hinner : ∀ u ∈ a.inner, ∀ b, Conform true u b → (same u b ↔ Alike u b) :=
      fun u hu b => ih u hu (hwell.of_mem_inner hu) (hnan.inside u hu)
    cases a with
    | null => cases b <;> simp [same, Alike, isNull, isNaN, compare?]
    | bool | int | float | text | timestamp =>
      rw [same_iff_of_isScalar rfl h, alike_iff_of_isScalar rfl hnan.here]
    | list as =>
      cases b with
      | list bs =>
        rw [same, sameElements_iff, Alike]
        exact forall₂_iff_elementsAlike hinner h
      | _ => simp [same, Alike, isNull, isNaN, compare?]
    | struct as =>
      cases b with
      | struct bs =>
        rw [Alike]
        exact same_struct_iff_fieldsAlike hwell.1
          (fun field hfield => hinner field.2 (List.mem_map_of_mem hfield)) h
      | _ => simp [same, Alike, isNull, isNaN, compare?]

theorem equal_iff_alike {a b : Value} (hwell : a.WellFormed)
    (hnan : a.Everywhere fun v => v.isNaN = false) (h : Conform false a b) :
    a.equal b ↔ Alike a b := by
  induction a using inner_induction generalizing b with
  | step a ih =>
    cases a with
    | null => cases b <;> simp [equal, Alike, isNull, isNaN, compare?]
    | bool | int | float | text | timestamp =>
      rw [equal_iff_of_isScalar rfl, alike_iff_of_isScalar rfl hnan.here]
    | list as =>
      cases b with
      | list bs =>
        rw [equal, equalElements_iff, Alike]
        exact forall₂_iff_elementsAlike
          (fun u hu b => ih u hu (hwell.of_mem_inner hu) (hnan.inside u hu)) h
      | _ => simp [equal, Alike, isNull, isNaN, compare?]
    | struct as =>
      cases b with
      | struct bs => exact same_iff_alike hwell hnan h
      | _ => simp [equal, Alike, isNull, isNaN, compare?]

def isStruct : Value → Bool
  | .struct _ => true
  | _ => false

/-- A value with no structured value inside conforms to every value. -/
theorem conform_of_isStruct {a : Value} (h : a.Everywhere fun v => v.isStruct = false)
    (b : Value) : Conform false a b := by
  induction a using inner_induction generalizing b with
  | step a ih =>
    cases a with
    | struct as => cases h.here
    | list as =>
      cases b with
      | list bs => exact elementsConform_of_forall fun u hu => ih u hu (h.inside u hu)
      | _ => trivial
    | _ => cases b <;> trivial

/-- On values without NaN that conform, a filter calls those equal that have one key. A value with
no structured value inside conforms to every value. -/
theorem equal_iff_key_eq (a : ProperValue) (b : Value)
    (hnan : a.val.Everywhere fun v => v.isNaN = false) :
    (Conform false a.val b → (a.val.equal b ↔ a.val.key = b.key)) ∧
    ((a.val.Everywhere fun v => v.isStruct = false) → Conform false a.val b) :=
  ⟨fun hconform => (equal_iff_alike a.property hnan hconform).trans alike_iff_key_eq,
    fun hflat => conform_of_isStruct hflat b⟩

/-- A number in front of a list and a structured value. -/
def mixedList (n : Value) : Value :=
  .list [n, .list [.text "a", .null], .struct [("x", .int 2), ("y", .null)]]

/-- The first number may be of either kind, since it is not inside the structured value. -/
theorem equal_iff_key_eq_mixedList :
    Conform false (mixedList (.int 1)) (mixedList (.float .one)) ∧
    (mixedList (.int 1)).equal (mixedList (.float .one)) ∧
    (mixedList (.int 1)).key = (mixedList (.float .one)).key := by
  have hwell : (mixedList (.int 1)).WellFormed := by decide
  have hequal : (mixedList (.int 1)).equal (mixedList (.float .one)) := by decide +kernel
  have hnan : (mixedList (.int 1)).Everywhere fun v => v.isNaN = false :=
    (equal_self_iff hwell).1 (by decide +kernel)
  have hconform : Conform false (mixedList (.int 1)) (mixedList (.float .one)) := by
    simp [mixedList, Conform, ElementsConform, FieldsConform]
  obtain ⟨hagree, -⟩ := equal_iff_key_eq ⟨mixedList (.int 1), hwell⟩ (mixedList (.float .one)) hnan
  exact ⟨hconform, hequal, (hagree hconform).1 hequal⟩

/-- Structured values that do not conform: two that are equal in another order of their fields have
different keys, and two with numbers of unlike kinds have one key and are not equal. -/
theorem equal_iff_key_eq_not_of_struct :
    ((struct [("a", .int 1), ("b", .int 2)]).equal (struct [("b", .int 2), ("a", .int 1)]) ∧
      (struct [("a", .int 1), ("b", .int 2)]).key ≠ (struct [("b", .int 2), ("a", .int 1)]).key) ∧
    (struct [("a", .int 1)]).equal (struct [("a", .float .one)]) = false ∧
      (struct [("a", .int 1)]).key = (struct [("a", .float .one)]).key := by
  decide +kernel

end Value

end RecordFlow
