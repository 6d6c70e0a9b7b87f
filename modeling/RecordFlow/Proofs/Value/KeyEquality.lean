import RecordFlow.Proofs.Value.KeyOrder

/-!
# Equal keys

`Value.Alike` relates the values that one key stands for, and no other key is a key of theirs
(`Value.alike_iff_key_eq`). The keys are read from the front: whatever follows a key begins with
none of the bytes `0x00` and `0xFF`, and from then on a key can be told from what follows it
(`Value.decodes`).
-/

namespace RecordFlow

theorem utf8Bytes_inj {s t : String} (h : utf8Bytes s = utf8Bytes t) : s = t := by
  apply String.toByteArray_inj.1
  exact ByteArray.ext (Array.toList_inj.1 h)

theorem utf8Bytes_eq_flatMap (s : String) :
    utf8Bytes s = s.toList.flatMap String.utf8EncodeChar := by
  rw [utf8Bytes, String.toUTF8, ← String.utf8Encode_toList, List.utf8Encode]
  simp

/-- An escaped text can be told from what follows it. -/
theorem escapedBytes_append_inj {as bs s t : List UInt8}
    (h : Value.escapedBytes as ++ s = Value.escapedBytes bs ++ t) : as = bs ∧ s = t := by
  have horder := compareBytes_escapedBytes as bs s t
  rw [h, compareBytes_self] at horder
  obtain ⟨hbytes, hrest⟩ := Ordering.then_eq_eq.1 horder.symm
  exact ⟨compareBytes_eq_eq_iff.1 hbytes, compareBytes_eq_eq_iff.1 hrest⟩

namespace Value

def isNaN : Value → Bool
  | .float x => x.isNaN
  | _ => false

theorem isNaN_of_parts? {v : Value} {p : Binary64 × Int} (h : v.parts? = some p) :
    v.isNaN = false := by
  obtain ⟨n, rfl, -⟩ | ⟨rfl, hnan, -⟩ := eq_of_parts? h
  · rfl
  · exact hnan

/-- What compares is not NaN. -/
theorem isNaN_of_compare? {a b : Value} {order : Ordering} (h : compare? a b = some order) :
    a.isNaN = false ∧ b.isNaN = false := by
  obtain ⟨p, q, ha, hb⟩ | ⟨p, q, rfl, rfl⟩ | ⟨p, q, rfl, rfl⟩ | ⟨p, q, rfl, rfl⟩ |
    ⟨as, bs, rfl, rfl⟩ := compare?_cases h
  · exact ⟨isNaN_of_parts? ha, isNaN_of_parts? hb⟩
  all_goals exact ⟨rfl, rfl⟩

/-! ### Values of one key -/

mutual

/-- Two values that one key stands for: both NULL, both NaN, equal in their order, lists with such
elements, or structured values with such fields of the same names in the same order. -/
def Alike : Value → Value → Prop
  | .list as, .list bs => ElementsAlike as bs
  | .struct as, .struct bs => FieldsAlike as bs
  | a, b => a.isNull ∧ b.isNull ∨ a.isNaN ∧ b.isNaN ∨ compare? a b = some .eq

def ElementsAlike : List Value → List Value → Prop
  | [], [] => True
  | a :: as, b :: bs => Alike a b ∧ ElementsAlike as bs
  | _, _ => False

def FieldsAlike : List (String × Value) → List (String × Value) → Prop
  | [], [] => True
  | (m, a) :: as, (n, b) :: bs => m = n ∧ Alike a b ∧ FieldsAlike as bs
  | _, _ => False

end

/-! ### Keys from the front -/

/-- The bytes can follow the key of a value. -/
def CanFollow (bs : List UInt8) : Prop :=
  ∀ b ∈ bs.head?, b ≠ 0x00 ∧ b ≠ 0xFF

/-- Keys of two values, with what follows them, are equal only if the values are alike. -/
def Decodes (a : Value) : Prop :=
  ∀ b s t, CanFollow s → CanFollow t → a.key ++ s = b.key ++ t → Alike a b ∧ s = t

/-- The first byte of a key tells what the value is. -/
structure ToldByLead (v : Value) : Prop where
  null : v.lead = 0x01 → v = .null
  bool : v.lead = 0x02 ∨ v.lead = 0x03 → ∃ b, v = .bool b
  number : v.lead = 0x10 → ∃ p, v.parts? = some p
  nan : v.lead = 0x19 → v.isNaN
  text : v.lead = 0x20 → ∃ s, v = .text s
  timestamp : v.lead = 0x32 → ∃ t, v = .timestamp t
  list : v.lead = 0x60 → ∃ elements, v = .list elements
  struct : v.lead = 0x64 → ∃ fields, v = .struct fields

theorem toldByLead (v : Value) : v.ToldByLead := by
  cases v with
  | bool b => cases b <;> constructor <;> simp [lead]
  | float x => cases h : x.isNaN <;> constructor <;> simp [lead, parts?, isNaN, h]
  | _ => constructor <;> simp [lead, parts?]

theorem lead_of_parts {v : Value} {p : Binary64 × Int} (h : v.parts? = some p) :
    v.lead = 0x10 := by
  obtain ⟨n, rfl, -⟩ | ⟨rfl, hnan, -⟩ := eq_of_parts? h
  · rfl
  · rw [lead, hnan]
    rfl

theorem lead_bool (b : Bool) : (bool b).lead = 0x02 ∨ (bool b).lead = 0x03 := by
  cases b <;> decide

theorem eq_null_of_isNull {v : Value} (h : v.isNull) : v = .null := by
  cases v with
  | null => rfl
  | _ => cases h

theorem exists_float_of_isNaN {v : Value} (h : v.isNaN) : ∃ x, v = .float x ∧ x.isNaN := by
  cases v with
  | float x => exact ⟨x, rfl, h⟩
  | _ => cases h

theorem key_of_isNaN {v : Value} (h : v.isNaN) : v.key = [0x19] := by
  obtain ⟨x, rfl, hx⟩ := exists_float_of_isNaN h
  rw [key, floatKey, if_pos hx]

theorem lead_eq_of_key_append_eq {a b : Value} {s t : List UInt8}
    (h : a.key ++ s = b.key ++ t) : a.lead = b.lead := by
  obtain ⟨as, ha⟩ := key_eq_lead_cons a
  obtain ⟨bs, hb⟩ := key_eq_lead_cons b
  rw [ha, hb] at h
  exact (List.cons.inj h).1

theorem eq_of_key_append_eq {a b : Value} {order : Ordering} {s t : List UInt8}
    (hab : compare? a b = some order) (h : a.key ++ s = b.key ++ t) : order = .eq ∧ s = t := by
  have hkey := compareBytes_key a b order hab s t
  rw [h, compareBytes_self] at hkey
  obtain ⟨horder, hrest⟩ := Ordering.then_eq_eq.1 hkey.symm
  exact ⟨horder, compareBytes_eq_eq_iff.1 hrest⟩

theorem alike_of_parts {a b : Value} {p q : Binary64 × Int} (ha : a.parts? = some p)
    (hb : b.parts? = some q) (h : compare? a b = some .eq) : Alike a b := by
  obtain ⟨m, rfl, -⟩ | ⟨rfl, -⟩ := eq_of_parts? ha <;>
    obtain ⟨n, rfl, -⟩ | ⟨rfl, -⟩ := eq_of_parts? hb <;>
    exact .inr (.inr h)

/-- A mark follows every element and every field. -/
theorem canFollow_mark (bs : List UInt8) : CanFollow (0x01 :: bs) := by
  intro b hb
  obtain rfl := Option.some.inj hb
  decide

theorem elementsKey_cons_append (a : Value) (as : List Value) (s : List UInt8) :
    elementsKey (a :: as) ++ s = a.key ++ 0x01 :: (elementsKey as ++ s) := by
  rw [elementsKey, List.append_assoc, List.cons_append]

theorem fieldsKey_cons_append (name : String) (a : Value) (as : List (String × Value))
    (s : List UInt8) : fieldsKey ((name, a) :: as) ++ s =
      escapedBytes (utf8Bytes name) ++ (a.key ++ 0x01 :: (fieldsKey as ++ s)) := by
  rw [fieldsKey, List.append_assoc, List.append_assoc, List.cons_append]

theorem elementsAlike_of_key_append_eq {as bs : List Value} {s t : List UInt8}
    (h : ∀ a ∈ as, a.Decodes) (hkey : elementsKey as ++ s = elementsKey bs ++ t) :
    ElementsAlike as bs ∧ s = t := by
  induction as generalizing bs with
  | nil =>
    cases bs with
    | nil => exact ⟨trivial, (List.cons.inj hkey).2⟩
    | cons b bs =>
      have hend := compareBytes_end_key b (0x01 :: elementsKey bs) s t
      rw [← elementsKey, ← hkey] at hend
      exact absurd (hend.symm.trans (compareBytes_self _)) (by decide)
  | cons a as ih =>
    cases bs with
    | nil =>
      have hend := compareBytes_end_key a (0x01 :: elementsKey as) t s
      rw [← elementsKey, hkey] at hend
      exact absurd (hend.symm.trans (compareBytes_self _)) (by decide)
    | cons b bs =>
      rw [elementsKey_cons_append, elementsKey_cons_append] at hkey
      obtain ⟨hab, hrest⟩ := h a List.mem_cons_self b _ _ (canFollow_mark _) (canFollow_mark _) hkey
      obtain ⟨hall, hst⟩ := ih (fun c hc => h c (List.mem_cons_of_mem a hc)) (List.cons.inj hrest).2
      exact ⟨⟨hab, hall⟩, hst⟩

/-- What can follow a key is no name after the end mark of a structured value. -/
theorem end_ne_escapedBytes {bs rest s : List UInt8} (h : CanFollow s) :
    0x00 :: s ≠ escapedBytes bs ++ rest := by
  intro heq
  cases bs with
  | nil =>
    obtain rfl := (List.cons.inj heq).2
    exact (h 0x00 rfl).1 rfl
  | cons b bs =>
    rw [escapedBytes_cons] at heq
    obtain ⟨rfl, rfl⟩ := List.cons.inj heq
    exact (h 0xFF rfl).2 rfl

theorem fieldsAlike_of_key_append_eq {as bs : List (String × Value)} {s t : List UInt8}
    (h : ∀ field ∈ as, field.2.Decodes) (hs : CanFollow s) (ht : CanFollow t)
    (hkey : fieldsKey as ++ s = fieldsKey bs ++ t) : FieldsAlike as bs ∧ s = t := by
  induction as generalizing bs with
  | nil =>
    cases bs with
    | nil => exact ⟨trivial, (List.cons.inj hkey).2⟩
    | cons field bs =>
      rw [fieldsKey_cons_append] at hkey
      exact absurd hkey (end_ne_escapedBytes hs)
  | cons first as ih =>
    obtain ⟨m, a⟩ := first
    cases bs with
    | nil =>
      rw [fieldsKey_cons_append] at hkey
      exact absurd hkey.symm (end_ne_escapedBytes ht)
    | cons second bs =>
      obtain ⟨n, b⟩ := second
      rw [fieldsKey_cons_append, fieldsKey_cons_append] at hkey
      obtain ⟨hname, hvalue⟩ := escapedBytes_append_inj hkey
      obtain ⟨hab, hrest⟩ :=
        h (m, a) List.mem_cons_self b _ _ (canFollow_mark _) (canFollow_mark _) hvalue
      obtain ⟨hall, hst⟩ := ih (fun c hc => h c (List.mem_cons_of_mem _ hc)) (List.cons.inj hrest).2
      exact ⟨⟨utf8Bytes_inj hname, hab, hall⟩, hst⟩

theorem decodes_of_parts {a : Value} {p : Binary64 × Int} (ha : a.parts? = some p) :
    a.Decodes := by
  intro b s t _ _ h
  obtain ⟨q, hb⟩ := b.toldByLead.number
    ((lead_eq_of_key_append_eq h).symm.trans (lead_of_parts ha))
  have horder := compare?_of_parts ha hb
  obtain ⟨heq, hst⟩ := eq_of_key_append_eq horder h
  rw [heq] at horder
  exact ⟨alike_of_parts ha hb horder, hst⟩

theorem decodes_of_isNaN {a : Value} (ha : a.isNaN) : a.Decodes := by
  intro b s t _ _ h
  obtain ⟨x, rfl, hx⟩ := exists_float_of_isNaN ha
  have hlead : b.lead = 0x19 := by
    rw [← lead_eq_of_key_append_eq h, lead, if_pos hx]
  have hb := b.toldByLead.nan hlead
  obtain ⟨y, rfl, hy⟩ := exists_float_of_isNaN hb
  refine ⟨.inr (.inl ⟨ha, hb⟩), ?_⟩
  rw [key_of_isNaN ha, key_of_isNaN hb] at h
  exact (List.cons.inj h).2

/-- What comes first in two equal byte strings are keys of values that are alike. -/
theorem decodes (a : Value) : a.Decodes := by
  induction a using inner_induction with
  | step a ih =>
    intro b s t hs ht h
    -- The first bytes agree, so the other value is of the kind of this one.
    have hlead := (lead_eq_of_key_append_eq h).symm
    cases a with
    | null =>
      obtain rfl := b.toldByLead.null hlead
      exact ⟨.inl ⟨rfl, rfl⟩, (List.cons.inj h).2⟩
    | bool p =>
      obtain ⟨q, rfl⟩ := b.toldByLead.bool (hlead ▸ lead_bool p)
      obtain ⟨heq, hst⟩ := eq_of_key_append_eq rfl h
      exact ⟨.inr (.inr (congrArg some heq)), hst⟩
    | int n => exact decodes_of_parts rfl b s t hs ht h
    | float x =>
      cases hx : x.isNaN with
      | false => exact decodes_of_parts (parts?_float hx) b s t hs ht h
      | true => exact decodes_of_isNaN (show (float x).isNaN from hx) b s t hs ht h
    | text p =>
      obtain ⟨q, rfl⟩ := b.toldByLead.text hlead
      obtain ⟨heq, hst⟩ := eq_of_key_append_eq rfl h
      exact ⟨.inr (.inr (congrArg some heq)), hst⟩
    | timestamp p =>
      obtain ⟨q, rfl⟩ := b.toldByLead.timestamp hlead
      obtain ⟨heq, hst⟩ := eq_of_key_append_eq rfl h
      exact ⟨.inr (.inr (congrArg some heq)), hst⟩
    | list as =>
      obtain ⟨bs, rfl⟩ := b.toldByLead.list hlead
      exact elementsAlike_of_key_append_eq ih (List.cons.inj h).2
    | struct as =>
      obtain ⟨bs, rfl⟩ := b.toldByLead.struct hlead
      exact fieldsAlike_of_key_append_eq
        (fun field hfield => ih field.2 (List.mem_map_of_mem hfield)) hs ht (List.cons.inj h).2

/-! ### Values that are alike -/

theorem key_eq_of_compare? {a b : Value} (h : compare? a b = some .eq) : a.key = b.key := by
  have hkey := compareBytes_key a b .eq h [] []
  rw [List.append_nil, List.append_nil, compareBytes_self] at hkey
  exact compareBytes_eq_eq_iff.1 hkey

theorem elementsKey_eq_of_alike {as bs : List Value}
    (h : ∀ a ∈ as, ∀ b, Alike a b → a.key = b.key) (hall : ElementsAlike as bs) :
    elementsKey as = elementsKey bs := by
  induction as generalizing bs with
  | nil =>
    cases bs with
    | nil => rfl
    | cons b bs => cases hall
  | cons a as ih =>
    cases bs with
    | nil => cases hall
    | cons b bs =>
      rw [elementsKey, elementsKey, h a List.mem_cons_self b hall.1,
        ih (fun c hc => h c (List.mem_cons_of_mem a hc)) hall.2]

theorem fieldsKey_eq_of_alike {as bs : List (String × Value)}
    (h : ∀ field ∈ as, ∀ b, Alike field.2 b → field.2.key = b.key) (hall : FieldsAlike as bs) :
    fieldsKey as = fieldsKey bs := by
  induction as generalizing bs with
  | nil =>
    cases bs with
    | nil => rfl
    | cons second bs => cases hall
  | cons first as ih =>
    obtain ⟨m, a⟩ := first
    cases bs with
    | nil => cases hall
    | cons second bs =>
      obtain ⟨n, b⟩ := second
      obtain ⟨rfl, hab, hrest⟩ := hall
      rw [fieldsKey, fieldsKey, h (m, a) List.mem_cons_self b hab,
        ih (fun c hc => h c (List.mem_cons_of_mem _ hc)) hrest]

theorem key_eq_of_alike {a b : Value} (h : Alike a b) : a.key = b.key := by
  induction a using inner_induction generalizing b with
  | step a ih =>
    fun_cases Alike a b with
    | case1 as bs =>
      have hin : ∀ a ∈ as, ∀ b, Alike a b → a.key = b.key := fun a ha b => ih a ha
      rw [key, key, elementsKey_eq_of_alike hin h]
    | case2 as bs =>
      have hin : ∀ field ∈ as, ∀ b, Alike field.2 b → field.2.key = b.key :=
        fun field hfield b => ih field.2 (List.mem_map_of_mem hfield)
      rw [key, key, fieldsKey_eq_of_alike hin h]
    | case3 a b hlist hstruct =>
      rw [Alike] at h
      · obtain ⟨ha, hb⟩ | ⟨ha, hb⟩ | heq := h
        · rw [eq_null_of_isNull ha, eq_null_of_isNull hb]
        · rw [key_of_isNaN ha, key_of_isNaN hb]
        · exact key_eq_of_compare? heq
      all_goals assumption

/-- The values of one key are alike, and no others. -/
theorem alike_iff_key_eq {a b : Value} : Alike a b ↔ a.key = b.key := by
  constructor
  · exact key_eq_of_alike
  · intro h
    have hempty : CanFollow [] := fun b hb => (by cases hb)
    exact (decodes a b [] [] hempty hempty (by rw [h])).1

/-! ### Values inside a value -/

/-- The value and all values inside it have a property. -/
inductive Everywhere (p : Value → Prop) : Value → Prop where
  | intro (v : Value) (here : p v) (inside : ∀ u ∈ v.inner, Everywhere p u) : Everywhere p v

theorem Everywhere.here {p : Value → Prop} {v : Value} (h : v.Everywhere p) : p v := by
  cases h with
  | intro _ here _ => exact here

theorem Everywhere.inside {p : Value → Prop} {v : Value} (h : v.Everywhere p) :
    ∀ u ∈ v.inner, u.Everywhere p := by
  cases h with
  | intro _ _ inside => exact inside

theorem Everywhere.leaf {p : Value → Prop} {v : Value} (hinner : v.inner = []) (h : p v) :
    v.Everywhere p := by
  refine .intro v h ?_
  rw [hinner]
  exact fun u hu => (by cases hu)

theorem Everywhere.pair {p : Value → Prop} {u v : Value} (h : p (.list [u, v]))
    (hu : u.Everywhere p) (hv : v.Everywhere p) : (list [u, v]).Everywhere p := by
  refine .intro _ h (List.forall_mem_cons.2 ⟨hu, List.forall_mem_cons.2 ⟨hv, ?_⟩⟩)
  exact fun w hw => (by cases hw)

end Value

end RecordFlow
