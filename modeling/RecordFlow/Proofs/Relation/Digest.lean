import RecordFlow.Proofs.Relation.Projection
import RecordFlow.Proofs.Stream.SortedGroups

/-!
# Digests of rows and records

A digest is the seed and the hashes of all rows, or of all records, combined by XOR
(`Relation.contentHash_eq`). XOR is associative and commutative, so the order does not matter; a
digest without its seed is the XOR of what it is made of, so the digests of the parts come together
to that of the whole (`joinDigests_of_perm`). The groups of a relation and the runs of a sorted
stream are such parts: together they have every row and every record once (`digest_spec`).
-/

namespace RecordFlow

/-! ### Combined hashes -/

/-- Hashes combined by XOR. -/
def xorAll (hashes : List UInt64) : UInt64 :=
  hashes.foldr (· ^^^ ·) 0

@[simp] theorem xorAll_nil : xorAll [] = 0 := rfl

@[simp] theorem xorAll_cons (h : UInt64) (hashes : List UInt64) :
    xorAll (h :: hashes) = h ^^^ xorAll hashes := rfl

@[simp] theorem xorAll_append (hashes hashes' : List UInt64) :
    xorAll (hashes ++ hashes') = xorAll hashes ^^^ xorAll hashes' := by
  induction hashes with
  | nil => simp
  | cons h hashes ih => rw [List.cons_append, xorAll_cons, xorAll_cons, ih, UInt64.xor_assoc]

theorem xorAll_perm {hashes hashes' : List UInt64} (h : hashes.Perm hashes') :
    xorAll hashes = xorAll hashes' :=
  h.foldr_eq' (fun a _ b _ c => by rw [← UInt64.xor_assoc, UInt64.xor_comm b a, UInt64.xor_assoc]) 0

theorem foldl_xor {α : Type} (f : α → UInt64) (as : List α) (start : UInt64) :
    as.foldl (fun hash a => hash ^^^ f a) start = start ^^^ xorAll (as.map f) := by
  induction as generalizing start with
  | nil => simp
  | cons a as ih => rw [List.foldl_cons, ih, List.map_cons, xorAll_cons, UInt64.xor_assoc]

/-- The digests of some parts brought together: each without its seed, and the seed once. -/
def joinDigests (parts : List UInt64) : UInt64 :=
  parts.foldl (fun digest part => digest ^^^ (part ^^^ contentHashSeed)) contentHashSeed

/-- The digests of parts that have every element of the whole once come together to its digest. -/
theorem joinDigests_of_perm {α : Type} (hash : α → UInt64) {parts : List (List α)} {whole : List α}
    (h : parts.flatten.Perm whole) :
    joinDigests (parts.map fun part => contentHashSeed ^^^ xorAll (part.map hash)) =
      contentHashSeed ^^^ xorAll (whole.map hash) := by
  have hpart : ∀ x : UInt64, contentHashSeed ^^^ x ^^^ contentHashSeed = x := by
    intro x
    rw [UInt64.xor_comm contentHashSeed, UInt64.xor_assoc, UInt64.xor_self, UInt64.xor_zero]
  have hparts : xorAll ((parts.map fun part => contentHashSeed ^^^ xorAll (part.map hash)).map
      (· ^^^ contentHashSeed)) = xorAll (parts.flatten.map hash) := by
    clear h
    induction parts with
    | nil => rfl
    | cons part parts ih =>
      rw [List.map_cons, List.map_cons, xorAll_cons, ih, hpart, List.flatten_cons,
        List.map_append, xorAll_append]
  rw [joinDigests, foldl_xor, hparts, xorAll_perm (h.map hash)]

/-! ### Relations -/

namespace Relation

theorem contentHash_eq (r : Relation) :
    r.contentHash = contentHashSeed ^^^ xorAll (r.rows.map Tuple.contentHash) :=
  foldl_xor Tuple.contentHash r.rows contentHashSeed

theorem contentHash_perm {r r' : Relation} (h : r.rows.Perm r'.rows) :
    r.contentHash = r'.contentHash := by
  rw [contentHash_eq, contentHash_eq, xorAll_perm (h.map _)]

end Relation

namespace Grouping

/-- A row that joins the groups adds its position to the positions in them. -/
theorem positions_join (key : List UInt8) (values : List Value) (position : Nat)
    (groups : List (List UInt8 × Group)) :
    ((join key values position groups).flatMap (·.2.positions)).Perm
      (groups.flatMap (·.2.positions) ++ [position]) := by
  induction groups with
  | nil => exact .refl _
  | cons first rest ih =>
    obtain ⟨k, g⟩ := first
    rw [join]
    split
    · simp only [List.flatMap_cons, List.append_assoc]
      exact .append_left _ List.perm_append_comm
    · simp only [List.flatMap_cons, List.append_assoc]
      exact .append_left _ ih

theorem positions_foldl_join (numbered : List (Tuple × Nat)) (values : Tuple → List Value)
    (groups : List (List UInt8 × Group)) :
    ((numbered.foldl (fun groups entry =>
        join ((values entry.1).flatMap Value.key) (values entry.1) entry.2 groups)
        groups).flatMap (·.2.positions)).Perm
      (groups.flatMap (·.2.positions) ++ numbered.map (·.2)) := by
  induction numbered generalizing groups with
  | nil => simp
  | cons entry numbered ih =>
    refine (ih _).trans ?_
    have hjoin :=
      positions_join ((values entry.1).flatMap Value.key) (values entry.1) entry.2 groups
    simpa using hjoin.append_right (numbered.map (·.2))

/-- Every position is in one group. -/
theorem positions_groupsOf (places : List Nat) (rows : List Tuple) :
    ((groupsOf places rows).flatMap (·.2.positions)).Perm (List.range rows.length) := by
  have h := positions_foldl_join rows.zipIdx (valuesAt places) []
  rwa [List.flatMap_nil, List.nil_append, List.zipIdx_map_snd, ← List.range_eq_range'] at h

theorem filterMap_range (rows : List Tuple) :
    (List.range rows.length).filterMap (rows[·]?) = rows := by
  have hnumbers := filterMap_numbers_zipIdx rows
  rwa [List.zipIdx_map_snd, ← List.range_eq_range'] at hnumbers

end Grouping

namespace Relation

variable {r : Relation} {columns : List String}

/-- Every row is in one group. -/
theorem rows_relations {g : Grouping} (hg : r.groupBy columns = .ok g) :
    ((g.relations.map (·.2.rows)).flatten).Perm r.rows := by
  obtain ⟨places, -, rfl⟩ := groupBy_eq_ok hg
  have hrows : ∀ groups : List (List UInt8 × Group),
      ((groups.map (·.2)).map fun group => group.positions.filterMap (r.rows[·]?)).flatten =
        (groups.flatMap (·.2.positions)).filterMap (r.rows[·]?) := by
    intro groups
    rw [List.filterMap_flatMap, List.map_map, List.flatMap]
    rfl
  have hperm := (Grouping.positions_groupsOf places r.rows).filterMap (r.rows[·]?)
  rw [Grouping.filterMap_range, ← hrows] at hperm
  rw [Grouping.relations, List.map_map]
  exact hperm

/-- The digests of the groups come together to the digest of the relation. -/
theorem joinDigests_relations {g : Grouping} (hg : r.groupBy columns = .ok g) :
    joinDigests (g.relations.map (·.2.contentHash)) = r.contentHash := by
  have hparts : g.relations.map (·.2.contentHash) = (g.relations.map (·.2.rows)).map
      fun rows => contentHashSeed ^^^ xorAll (rows.map Tuple.contentHash) := by
    rw [List.map_map]
    exact List.map_congr_left fun group _ => group.2.contentHash_eq
  rw [hparts, joinDigests_of_perm Tuple.contentHash (rows_relations hg), contentHash_eq]

theorem exists_position_iff {name : String} :
    (∃ p, r.position name = .ok p) ↔ name ∈ r.schema.names := by
  rw [← Attributes.isSome_position?_iff, position]
  cases r.schema.position? name <;> simp

/-- Rows can be grouped by any columns of the relation, at least one. -/
theorem exists_groupBy_iff :
    (∃ g, r.groupBy columns = .ok g) ↔
      columns ≠ [] ∧ ∀ name ∈ columns, name ∈ r.schema.names := by
  constructor
  · rintro ⟨g, hg⟩
    obtain ⟨places, hplaces, -⟩ := groupBy_eq_ok hg
    refine ⟨?_, fun name hname => exists_position_iff.1 (exists_ok_of_mapM hplaces hname)⟩
    rintro rfl
    cases hg
  · rintro ⟨hne, hnames⟩
    cases hplaces : columns.mapM r.position with
    | error fault =>
      obtain ⟨name, hname, hposition⟩ := exists_error_of_mapM hplaces
      obtain ⟨p, hp⟩ := exists_position_iff.2 (hnames name hname)
      rw [hp] at hposition
      cases hposition
    | ok places =>
      have hempty : columns.isEmpty = false := by simpa using hne
      rw [groupBy, hempty, hplaces]
      exact ⟨_, rfl⟩

end Relation

/-! ### Streams -/

/-- The digest of some records. -/
def Record.digest (records : List Record) : UInt64 :=
  contentHashSeed ^^^ xorAll (records.map Record.contentHash)

theorem Item.contentHash_eq (items : List Item) :
    Item.contentHash items = (Item.records items).map Record.digest := by
  rw [Item.contentHash]
  congr 1
  funext records
  exact foldl_xor Record.contentHash records contentHashSeed

theorem Item.contentHash_map_ok (records : List Record) :
    Item.contentHash (records.map .ok) = .ok (Record.digest records) := by
  rw [Item.contentHash_eq, Item.records_map_ok, Except.map]

/-- A record stands in one run of equal keys. -/
theorem Item.members_groupBySorted (name : String) {items : List Item} {records : List Record}
    (h : Item.records items = .ok records) :
    ∃ groups, Item.groupBySorted name items = .ok groups ∧
      ((groups.map (·.2)).flatten).Perm records := by
  refine ⟨_, groupBySorted_eq name h, ?_⟩
  rw [List.map_map]
  exact perm_flatMap_runKeys name records

namespace RecordStream

/-- The digest of the records that a traversal of the stream yields. -/
def contentHash (a : SpillArea) (s : RecordStream) : Except Fault UInt64 := do
  Item.contentHash (← (s.traverse a).1).items

theorem contentHash_of_traverse {a : SpillArea} {s : RecordStream} {records : List Record}
    (h : (s.traverse a).1.map Traversal.items = .ok (records.map .ok)) :
    s.contentHash a = .ok (Record.digest records) := by
  obtain ⟨t, ht, hitems⟩ := exists_traversal h
  show (s.traverse a).1.bind _ = _
  rw [ht, Except.bind, hitems, Item.contentHash_map_ok]

/-- The digests of the groups of a stream come together to the digest of the stream. -/
theorem joinDigests_groupBySorted (a : SpillArea) (s : RecordStream) (name : String) :
    (do
      let groups ← Item.groupBySorted name (← (s.traverse a).1).items
      let parts ← groups.mapM fun group => (materialized group.2).contentHash a
      return joinDigests parts) = s.contentHash a := by
  have hgroup : ∀ group : Value × List Record,
      (materialized group.2).contentHash a = .ok (Record.digest group.2) := fun group =>
    contentHash_of_traverse (congrArg Except.ok (Traversal.items_ofItems _))
  rw [contentHash]
  cases (s.traverse a).1 with
  | error fault => rfl
  | ok t =>
    show (Item.groupBySorted name t.items).bind _ = Item.contentHash t.items
    rw [Item.contentHash_eq]
    cases hrecords : Item.records t.items with
    | error fault => rw [Item.groupBySorted, hrecords]; rfl
    | ok records =>
      obtain ⟨groups, hgroups, hperm⟩ := Item.members_groupBySorted name hrecords
      have hjoin := joinDigests_of_perm Record.contentHash hperm
      rw [List.map_map] at hjoin
      rw [hgroups, Except.bind, Except.map, Record.digest, ← hjoin]
      show Except.bind (groups.mapM _) _ = _
      rw [mapM_of_ok fun group _ => hgroup group]
      rfl

end RecordStream

/-! ### Any order, any parts -/

/-- The digest of a relation, and that of a stream, is the same for any order of the same rows or
records, and it is what the digests of the groups by any columns, or of the runs of equal keys in
sorted order, come together to. Rows can be grouped by any columns that there are, at least one. -/
theorem digest_spec :
    (∀ r r' : Relation, r.rows.Perm r'.rows → r.contentHash = r'.contentHash) ∧
    (∀ (a a' : SpillArea) (s s' : RecordStream) (records records' : List Record),
      (s.traverse a).1.map Traversal.items = .ok (records.map .ok) →
      (s'.traverse a').1.map Traversal.items = .ok (records'.map .ok) →
      records.Perm records' →
      ∃ h, s.contentHash a = .ok h ∧ s'.contentHash a' = .ok h) ∧
    (∀ (r : Relation) (columns : List String),
      ((∃ g, r.groupBy columns = .ok g) ↔
        columns ≠ [] ∧ ∀ name ∈ columns, name ∈ r.schema.names) ∧
      ∀ g, r.groupBy columns = .ok g →
        joinDigests (g.relations.map (·.2.contentHash)) = r.contentHash) ∧
    ∀ (a : SpillArea) (s : RecordStream) (name : String),
      (do
        let groups ← Item.groupBySorted name (← (s.traverse a).1).items
        let parts ← groups.mapM fun group => (RecordStream.materialized group.2).contentHash a
        return joinDigests parts) = s.contentHash a := by
  refine ⟨fun r r' => Relation.contentHash_perm, ?_,
    fun r columns => ⟨Relation.exists_groupBy_iff, fun g => Relation.joinDigests_relations⟩,
    RecordStream.joinDigests_groupBySorted⟩
  intro a a' s s' records records' hs hs' hperm
  refine ⟨Record.digest records, RecordStream.contentHash_of_traverse hs, ?_⟩
  rw [RecordStream.contentHash_of_traverse hs', Record.digest, Record.digest,
    xorAll_perm (hperm.map _)]

/-- Sales of two kinds, one of them twice. -/
def sales : Relation :=
  .ofTuples [("kind", { kind := .other }), ("count", { kind := .numeric })] [
    [.text "pear", .int 2], [.text "plum", .int 1], [.text "pear", .int 2], [.text "pear", .null]]

/-- The records of the sales the other way round, not read into memory. -/
def salesBackwards : RecordStream :=
  .through (.ofRecords sales.records.reverse)

theorem digest_spec_sales :
    sales.contentHash = { sales with rows := sales.rows.reverse }.contentHash ∧
    (∃ h, (RecordStream.ofRelation sales).contentHash {} = .ok h ∧
      salesBackwards.contentHash {} = .ok h) ∧
    ∃ g, sales.groupBy ["kind"] = .ok g ∧
      g.relations.map (·.2.rows.length) = [3, 1] ∧
      joinDigests (g.relations.map (·.2.contentHash)) = sales.contentHash := by
  obtain ⟨hrows, hrecords, hgroups, -⟩ := digest_spec
  have hlengths : (sales.groupBy ["kind"]).map (·.relations.map (·.2.rows.length)) =
      .ok [3, 1] := rfl
  have hback : (salesBackwards.traverse {}).1.map Traversal.items =
      .ok (sales.records.reverse.map .ok) :=
    congrArg Except.ok (Traversal.items_ofItems _)
  obtain ⟨hgroup, hjoin⟩ := hgroups sales ["kind"]
  obtain ⟨g, hg⟩ := hgroup.2 (by decide)
  rw [hg] at hlengths
  exact ⟨hrows _ _ sales.rows.reverse_perm.symm,
    hrecords {} {} (.ofRelation sales) salesBackwards _ _ rfl hback
      sales.records.reverse_perm.symm,
    g, hg, Except.ok.inj hlengths, hjoin g hg⟩

end RecordFlow
