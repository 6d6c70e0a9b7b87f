import RecordFlow.Proofs.Json.Members
import RecordFlow.Proofs.Relation.Construction
import RecordFlow.Proofs.Value.Nesting
import RecordFlow.Relation.Exchange

/-!
# Relations written as lines are read back

The text of a relation has a line for its schema and a line for each row. The schema is read from
the document of its line, field by field (`AttributeDomain.ofWritten?_of_value?`), and each row is
read from its record, so the relation that is read has the attributes and rows of the one that was
written, with the numbers as they are read (`JsonLines.read_write`).
-/

namespace RecordFlow

open Json

/-! ### Fields of a domain -/

namespace AttributeDomain

/-- The members of the stored form of a domain. -/
def fields (d : AttributeDomain) : List (String × Json) :=
  [("kind", .string d.kind.name)] ++
    (d.min.map fun v => ("min", v.toStored)).toList ++
    (d.max.map fun v => ("max", v.toStored)).toList ++
    (d.count.map fun n => ("count", .int n)).toList ++
    (d.unique.map fun n => ("unique", .int n)).toList ++
    (d.nullable.map fun b => ("nullable", .bool b)).toList

section Optional

variable {α : Type} (o : Option α) (f : α → Json) (name : String)

theorem sublist_optional : ((o.map fun a => (name, f a)).toList.map (·.1)).Sublist [name] := by
  cases o with
  | none => exact List.nil_sublist _
  | some a => exact List.Sublist.refl _

theorem lookup_optional (key : String) :
    (o.map fun a => (name, f a)).toList.lookup key = if key = name then o.map f else none := by
  cases o with
  | none => simp
  | some a => simp [lookup_cons_eq]

end Optional

/-- The fields have their names in order, some left out. -/
theorem sublist_fields (d : AttributeDomain) : (d.fields.map (·.1)).Sublist fieldNames := by
  simp only [fields, List.map_append]
  exact (((((List.Sublist.refl ["kind"]).append (sublist_optional _ _ _)).append
    (sublist_optional _ _ _)).append (sublist_optional _ _ _)).append
    (sublist_optional _ _ _)).append (sublist_optional _ _ _)

theorem lookup_fields (d : AttributeDomain) :
    d.fields.lookup "kind" = some (.string d.kind.name) ∧
      d.fields.lookup "min" = d.min.map Value.toStored ∧
      d.fields.lookup "max" = d.max.map Value.toStored ∧
      d.fields.lookup "count" = d.count.map (fun n => .int n) ∧
      d.fields.lookup "unique" = d.unique.map (fun n => .int n) ∧
      d.fields.lookup "nullable" = d.nullable.map .bool := by
  simp [fields, List.lookup_append, lookup_optional, lookup_cons_eq]

/-- The part of some name means a value, or neither is there. -/
def Finds (parts : List (String × Written)) (name : String) : Option Json → Prop
  | none => parts.lookup name = none
  | some j => ∃ w, parts.lookup name = some w ∧ w.value? fieldDepth = some j

theorem finds_of_means {parts : List (String × Written)} {js : List (String × Json)}
    (h : List.Forall₂ (Means fieldDepth) parts js) (name : String) :
    Finds parts name (js.lookup name) := by
  induction h with
  | nil => exact rfl
  | @cons part j parts js hmeans _ ih =>
    obtain ⟨hname, hvalue⟩ := hmeans
    have hpart := lookup_cons_eq part parts name
    rw [hname] at hpart
    rw [lookup_cons_eq]
    by_cases hkey : name = j.1
    · rw [if_pos hkey] at hpart ⊢
      exact ⟨part.2, hpart, hvalue⟩
    · rw [if_neg hkey] at hpart ⊢
      unfold Finds at ih ⊢
      rwa [hpart]

/-- A field that may be left out is read if it is there. -/
theorem optional?_of_finds {α β : Type} {parts : List (String × Written)} {name : String}
    {read : Json → Option α} {j : Option Json} {o : Option β} {f : β → Json} {g : β → α}
    (h : Finds parts name (j.map Json.reread)) (hj : j = o.map f)
    (hread : ∀ b ∈ o, (f b).reread ≠ .null ∧ read (f b).reread = some (g b)) :
    optional? parts name read = some (o.map g) := by
  subst hj
  cases o with
  | none =>
    have hnone : parts.lookup name = none := h
    rw [optional?, hnone]
    rfl
  | some b =>
    obtain ⟨w, hw, hvalue⟩ := h
    obtain ⟨hne, hb⟩ := hread b rfl
    rw [optional?, hw]
    cases w with
    | null => exact absurd (Option.some.inj hvalue).symm hne
    | bool | number | string | array | object => simp [hvalue, hb]

/-- The numbers of a domain are those of a machine, and its values are well formed. -/
structure Storable (d : AttributeDomain) : Prop where
  min : ∀ v ∈ d.min, v.WellFormed
  max : ∀ v ∈ d.max, v.WellFormed
  count : ∀ n ∈ d.count, n < 2 ^ 64
  unique : ∀ n ∈ d.unique, n < 2 ^ 64

/-- The domain as its stored form is read. -/
def reread (d : AttributeDomain) : AttributeDomain :=
  { d with min := d.min.map Value.reread, max := d.max.map Value.reread }

theorem ofName?_name (kind : LogicalType) : LogicalType.ofName? kind.name = some kind := by
  cases kind <;> rfl

theorem reread_toStored_ne_null (v : Value) : v.toStored.reread ≠ .null := by
  cases v <;> simp [Value.toStored, Json.reread]

theorem countOf?_int {n : Nat} (h : n < 2 ^ 64) : countOf? (.int n) = some n := by
  rw [countOf?, if_pos (by simp only [Bool.and_eq_true, decide_eq_true_eq]; omega),
    Int.toNat_natCast]

/-- The parts of a document that means a domain are its fields. -/
theorem fieldsOf?_of_value? {d : AttributeDomain} {w : Written}
    (h : w.value? (fieldDepth + 1) = some d.toStored.reread) :
    ∃ parts, fieldsOf? w = some parts ∧ ∀ name,
      Finds parts name ((d.fields.lookup name).map Json.reread) := by
  obtain ⟨ms, rfl, hms⟩ := exists_members_of_value? h
  obtain ⟨parts, hparts, hmeans⟩ := exists_named_of_memberValues? hms
  have hnames : parts.map (·.1) = d.fields.map (·.1) := by
    rw [← map_fst_rereadMembers, ← List.forall₂_eq_eq_eq, List.forall₂_map_left_iff,
      List.forall₂_map_right_iff]
    exact hmeans.imp fun _ _ hpart => hpart.1
  have hknown : parts.filter (fun part => fieldNames.contains part.1) = parts := by
    rw [List.filter_eq_self]
    intro part hpart
    rw [List.contains_iff_mem]
    refine d.sublist_fields.subset ?_
    rw [← hnames]
    exact List.mem_map_of_mem hpart
  have hnodup : (parts.map (·.1)).Nodup := by
    rw [hnames]
    exact d.sublist_fields.nodup (by decide)
  refine ⟨parts, ?_, fun name => ?_⟩
  · rw [fieldsOf?, hparts]
    simp only [Option.bind_eq_bind, Option.bind_some]
    rw [hknown, if_pos hnodup]
  · rw [← lookup_rereadMembers]
    exact finds_of_means hmeans name

/-- A document that means the stored form of a domain is read as that domain. -/
theorem ofWritten?_of_value? {d : AttributeDomain} (hd : d.Storable) {w : Written}
    (h : w.value? (fieldDepth + 1) = some d.toStored.reread) : ofWritten? w = some d.reread := by
  obtain ⟨parts, hparts, hfinds⟩ := fieldsOf?_of_value? h
  obtain ⟨hkind, hmin, hmax, hcount, hunique, hnullable⟩ := d.lookup_fields
  obtain ⟨kind, hlookup, hvalue⟩ : Finds parts "kind" (some (.string d.kind.name)) := by
    have hfind := hfinds "kind"
    rwa [hkind] at hfind
  have hleast : optional? parts "min" Value.ofStored? = some (d.min.map Value.reread) :=
    optional?_of_finds (hfinds "min") hmin fun v hv =>
      ⟨reread_toStored_ne_null v, Value.ofStored?_reread_toStored v (hd.min v hv)⟩
  have hgreatest : optional? parts "max" Value.ofStored? = some (d.max.map Value.reread) :=
    optional?_of_finds (hfinds "max") hmax fun v hv =>
      ⟨reread_toStored_ne_null v, Value.ofStored?_reread_toStored v (hd.max v hv)⟩
  have hnumber : optional? parts "count" countOf? = some (d.count.map id) :=
    optional?_of_finds (hfinds "count") hcount fun n hn =>
      ⟨Json.noConfusion, countOf?_int (hd.count n hn)⟩
  have hdifferent : optional? parts "unique" countOf? = some (d.unique.map id) :=
    optional?_of_finds (hfinds "unique") hunique fun n hn =>
      ⟨Json.noConfusion, countOf?_int (hd.unique n hn)⟩
  have hnulls : optional? parts "nullable" flagOf? = some (d.nullable.map id) :=
    optional?_of_finds (hfinds "nullable") hnullable fun b _ => ⟨Json.noConfusion, rfl⟩
  rw [Option.map_id] at hnumber hdifferent hnulls
  simp [ofWritten?, hparts, hlookup, hvalue, kindOf?, ofName?_name, hleast, hgreatest, hnumber,
    hdifferent, hnulls, reread]

theorem readable_toStored {d : AttributeDomain} (hd : d.Storable) : d.toStored.Readable := by
  refine membersReadable_of_forall fun member hmember => ?_
  simp only [List.mem_append, List.mem_singleton, Option.mem_toList, Option.map_eq_some_iff,
    or_assoc] at hmember
  rcases hmember with rfl | ⟨v, -, rfl⟩ | ⟨v, -, rfl⟩ | ⟨n, hn, rfl⟩ | ⟨n, hn, rfl⟩ | ⟨b, -, rfl⟩
  · trivial
  · exact Value.readable_toStored v
  · exact Value.readable_toStored v
  · exact readable_natCast (hd.count n hn)
  · exact readable_natCast (hd.unique n hn)
  · trivial

end AttributeDomain

/-! ### Schemas -/

namespace Schema

/-- The schema as its stored form is read. -/
def reread (s : Schema) : Schema :=
  s.map fun (name, d) => (name, d.reread)

theorem names_reread (s : Schema) : s.reread.names = s.names := by
  rw [reread, Attributes.names, Attributes.names, List.map_map]
  rfl

theorem mapM_ofWritten? {s : Schema} :
    ∀ {ms : List (List StringPart × Written)}, (∀ entry ∈ s, entry.2.Storable) →
    Written.memberValues? (AttributeDomain.fieldDepth + 1) ms =
      some (rereadMembers (s.map fun (name, d) => (name, d.toStored))) →
    (ms.mapM fun (name, w) => do
      return (String.ofList (← joinHalves name), ← AttributeDomain.ofWritten? w)) =
      some s.reread := by
  induction s with
  | nil =>
    intro ms _ h
    cases ms with
    | nil => rfl
    | cons m ms =>
      obtain ⟨_, _, _, -, -, -, hcons⟩ := Written.memberValues?_cons_eq_some.1 h
      cases hcons
  | cons entry s ih =>
    intro ms hs h
    cases ms with
    | nil => cases h
    | cons m ms =>
      obtain ⟨cs, j, js, hcs, hj, hjs, hcons⟩ := Written.memberValues?_cons_eq_some.1 h
      obtain ⟨hentry, rfl⟩ := List.cons.inj hcons
      obtain ⟨hname, rfl⟩ := Prod.mk.inj hentry
      have hd := AttributeDomain.ofWritten?_of_value? (hs entry List.mem_cons_self) hj
      have hrest := ih (fun entry hentry => hs entry (List.mem_cons_of_mem _ hentry)) hjs
      rw [List.mapM_cons, hrest]
      simp [hcs, hd, hname, reread]

/-- The line of a schema is read as that schema. -/
theorem ofWritten?_read? {s : Schema} (hnames : s.names.Nodup)
    (hs : ∀ entry ∈ s, entry.2.Storable) (hdepth : s.toStored.depth ≤ maxDepth) :
    (Written.read? s.toStored.chars).bind ofWritten? = some s.reread := by
  have hreadable : s.toStored.Readable := by
    refine membersReadable_of_forall fun member hmember => ?_
    obtain ⟨entry, hentry, rfl⟩ := List.mem_map.1 hmember
    exact AttributeDomain.readable_toStored (hs entry hentry)
  obtain ⟨w, hread, hvalue⟩ := exists_read?_chars hreadable
  obtain ⟨ms, rfl, hms⟩ := exists_members_of_value? (hvalue maxDepth hdepth)
  rw [hread, Option.bind_some, ofWritten?, mapM_ofWritten? hs hms]
  rw [← names_reread] at hnames
  exact congrArg some (Attributes.ofPairs_of_nodup hnames)

end Schema

/-! ### Rows -/

theorem Record.reread_zip (names : List String) (row : Tuple) :
    Record.reread (names.zip row) = names.zip (row.map Value.reread) := by
  rw [Record.reread]
  induction names generalizing row with
  | nil => rfl
  | cons name names ih =>
    cases row with
    | nil => rfl
    | cons v row => simp [Value.rereadFields, ih]

namespace Relation

/-- The relation can be written as lines that can be read: its schema and its rows fit, its values
are well formed, and no line nests deeper than the reader of JSON goes. -/
structure Writable (r : Relation) : Prop where
  shape : r.WellShaped
  domains : ∀ entry ∈ r.schema, entry.2.Storable
  schemaDepth : r.schema.toStored.depth ≤ maxDepth
  rows : ∀ record ∈ r.records, (Value.struct record).WellFormed ∧ record.levels ≤ maxDepth

/-- The relation as its lines are read. It has no name, and its rows count as not yet computed. -/
def reread (r : Relation) : Relation :=
  { name := none
    schema := r.schema.reread
    rows := r.rows.map fun row => row.map Value.reread
    materialized := false }

/-- Values put beside distinct names are found under them. -/
theorem map_value_zip {names : List String} (hnames : names.Nodup) {row : Tuple}
    (hlength : row.length = names.length) :
    names.map (Record.value (names.zip row)) = row := by
  have hdistinct : (Attributes.names (names.zip row)).Nodup := by
    rwa [Attributes.names, List.map_fst_zip (Nat.le_of_eq hlength.symm)]
  refine List.ext_getElem (by rw [List.length_map, hlength]) fun p hp hrow => ?_
  rw [List.getElem_map]
  refine value_of_mem hdistinct (List.mem_iff_getElem.2 ⟨p, ?_, ?_⟩)
  · rw [List.length_zip]
    rw [List.length_map] at hp
    omega
  · rw [List.getElem_zip]

theorem fitWidth_of_length {width : Nat} {row : Tuple} (h : row.length = width) :
    fitWidth width row = row := by
  rw [fitWidth, List.take_of_length_le (Nat.le_of_eq h), h, Nat.sub_self,
    List.replicate_zero, List.append_nil]

/-- The rows that are read are those of the relation. -/
theorem ofTuples_reread {r : Relation} (hshape : r.WellShaped) :
    ofTuples r.schema.reread
      (r.records.map fun record => r.schema.reread.names.map record.reread.value) = r.reread := by
  have hrow : ∀ row ∈ r.rows,
      fitWidth r.schema.reread.length
        (r.schema.reread.names.map (Record.reread (r.recordOf row)).value) =
      row.map Value.reread := by
    intro row hrow
    have hlength : (row.map Value.reread).length = r.schema.names.length := by
      rw [List.length_map, hshape.2 row hrow, Attributes.names, List.length_map]
    rw [Schema.names_reread, recordOf, Record.reread_zip,
      map_value_zip hshape.1 hlength]
    refine fitWidth_of_length ?_
    rw [hlength, Attributes.names, Schema.reread, List.length_map, List.length_map]
  simp only [ofTuples, records, reread, List.map_map]
  congr 1
  exact List.map_congr_left hrow

end Relation

namespace JsonLines

theorem readRows_map_line (schema : Schema) {records : List Record}
    (h : ∀ record ∈ records, (Value.struct record).WellFormed ∧ record.levels ≤ maxDepth)
    (position : Nat) : readRows schema position (records.map (·.line.toList)) =
      .ok (records.map fun record => schema.names.map record.reread.value) := by
  induction records generalizing position with
  | nil => rfl
  | cons record records ih =>
    obtain ⟨hwell, hlevels⟩ := h record List.mem_cons_self
    have hread := Record.ofLine?_line_eq hwell
    rw [Record.depth_toStored, if_pos hlevels] at hread
    have hrest := ih (fun r hr => h r (List.mem_cons_of_mem _ hr)) (position + 1)
    rw [List.map_cons, readRows, hread]
    dsimp only
    rw [hrest]
    rfl

theorem toList_write (r : Relation) : (write r).toList =
    ['\n'].intercalate (r.schema.toStored.chars :: r.records.map (·.line.toList)) := by
  have hheader : r.schema.toStored.text.toList = r.schema.toStored.chars := String.toList_ofList
  rw [write, String.toList_intercalate, List.map_cons, List.map_map, hheader]
  rfl

/-- The lines of a relation are read as that relation with its numbers as they are read. -/
theorem read_write {r : Relation} (h : r.Writable) : read (write r) = .ok r.reread := by
  have hsplit : (write r).toList.splitOn '\n' =
      r.schema.toStored.chars :: r.records.map (·.line.toList) := by
    rw [toList_write]
    refine List.splitOn_intercalate '\n' ?_ (List.cons_ne_nil _ _)
    simp only [List.forall_mem_cons, List.forall_mem_map]
    exact ⟨newline_not_mem_chars _, fun record _ => record.newline_not_mem_line⟩
  have hheader := Schema.ofWritten?_read? h.shape.1 h.domains h.schemaDepth
  have hrows := readRows_map_line r.schema.reread h.rows 0
  obtain ⟨c, cs, hcs⟩ : ∃ c cs, r.schema.toStored.chars = c :: cs := ⟨_, _, rfl⟩
  rw [read, hsplit, hcs]
  dsimp only
  rw [← hcs, hheader]
  dsimp only
  rw [hrows, Except.map, Relation.ofTuples_reread h.shape]

end JsonLines

end RecordFlow
