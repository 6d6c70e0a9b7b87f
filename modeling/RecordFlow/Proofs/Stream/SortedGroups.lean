import Mathlib.Data.List.SplitBy
import RecordFlow.Proofs.Stream.Positions
import RecordFlow.Proofs.Value.Feed

/-!
# Groups of a sorted index

The records of a stream are grouped by way of an index of keys and numbers. Its entries are
different, so in sorted order they ascend strictly (`Item.pairwise_keyIndex`), and the runs of equal
keys are, for each key, all its entries (`Item.splitBy_key`). The numbers in a run ascend, so the
slots give the records of the key in their order, and none of them is empty when it is asked for,
because every number is asked for once (`Item.takeRuns_eq`).
-/

namespace RecordFlow

namespace Item

/-! ### The order of an index -/

theorem compareEntries_eq :
    compareEntries = compareLex (compareOn (·.1)) (compareOn (·.2)) := by
  funext a b
  rw [compareEntries, compareBytes_eq_compare]
  rfl

instance : Std.TransCmp compareEntries := by
  rw [compareEntries_eq]
  infer_instance

/-- An entry stands before another one in a sorted index. -/
def Before (a b : List UInt8 × Nat) : Prop :=
  compareEntries a b = .lt

theorem before_iff {a b : List UInt8 × Nat} :
    Before a b ↔ compareBytes a.1 b.1 = .lt ∨ a.1 = b.1 ∧ a.2 < b.2 := by
  rw [Before, compareEntries, Ordering.then_eq_lt, compareBytes_eq_eq_iff, Nat.compare_eq_lt]

instance : Std.Irrefl Before :=
  ⟨fun entry h => by simp [before_iff] at h⟩

instance : Std.Antisymm Before :=
  ⟨fun _ _ hlt hgt => absurd hgt (Std.OrientedCmp.not_lt_of_lt hlt)⟩

/-- The key of a record under a name. -/
def keyUnder (name : String) (r : Record) : List UInt8 :=
  (Record.value r name).key

variable {name : String} {records : List Record}

theorem perm_keyIndex (name : String) (records : List Record) :
    (keyIndex name records).Perm (records.zipIdx.map fun (r, i) => (keyUnder name r, i)) :=
  List.mergeSort_perm _ _

theorem mem_keyIndex {key : List UInt8} {i : Nat} : (key, i) ∈ keyIndex name records ↔
    ∃ r, records[i]? = some r ∧ keyUnder name r = key := by
  rw [(perm_keyIndex name records).mem_iff, List.mem_map]
  constructor
  · rintro ⟨⟨r, i⟩, hr, heq⟩
    obtain ⟨rfl, rfl⟩ := Prod.mk.inj heq
    exact ⟨r, List.mem_zipIdx_iff_getElem?.1 hr, rfl⟩
  · rintro ⟨r, hr, rfl⟩
    exact ⟨(r, i), List.mem_zipIdx_iff_getElem?.2 hr, rfl⟩

theorem nodup_numbers_keyIndex (name : String) (records : List Record) :
    ((keyIndex name records).map (·.2)).Nodup := by
  have hnumbers := (perm_keyIndex name records).map (·.2)
  rw [List.map_map] at hnumbers
  rw [hnumbers.nodup_iff]
  have hascending := pairwise_snd_zipIdx records 0
  exact List.pairwise_map.2 (hascending.imp Nat.ne_of_lt)

/-- The entries of an index ascend strictly. -/
theorem pairwise_keyIndex (name : String) (records : List Record) :
    (keyIndex name records).Pairwise Before := by
  have htrans : ∀ a b c, (compareEntries a b).isLE → (compareEntries b c).isLE →
      (compareEntries a c).isLE := fun _ _ _ => Std.TransCmp.isLE_trans
  have htotal : ∀ a b, (compareEntries a b).isLE || (compareEntries b a).isLE := by
    intro a b
    have hswap : compareEntries b a = (compareEntries a b).swap := Std.OrientedCmp.eq_swap
    rw [hswap]
    cases compareEntries a b <;> rfl
  have hsorted : (keyIndex name records).Pairwise fun a b => (compareEntries a b).isLE :=
    List.pairwise_mergeSort htrans htotal _
  have hne := List.pairwise_map.1 (nodup_numbers_keyIndex name records)
  refine (hsorted.and hne).imp fun {a b} h => ?_
  obtain hlt | heq := Ordering.isLE_iff_eq_lt_or_eq_eq.1 h.1
  · exact hlt
  · rw [compareEntries, Ordering.then_eq_eq, Nat.compare_eq_eq] at heq
    exact (h.2 heq.2).elim

/-! ### Runs of equal keys -/

section Runs

variable {index : List (List UInt8 × Nat)}

/-- The different keys of an index, in its order. -/
def runKeys (index : List (List UInt8 × Nat)) : List (List UInt8) :=
  (index.map (·.1)).eraseDups

/-- The entries of a key. -/
def runOf (index : List (List UInt8 × Nat)) (key : List UInt8) : List (List UInt8 × Nat) :=
  index.filter (·.1 == key)

theorem mem_runOf {key : List UInt8} {entry : List UInt8 × Nat} :
    entry ∈ runOf index key ↔ entry ∈ index ∧ entry.1 = key := by
  rw [runOf, List.mem_filter, beq_iff_eq]

theorem runOf_ne_nil {key : List UInt8} (h : key ∈ runKeys index) : runOf index key ≠ [] := by
  rw [runKeys, List.mem_eraseDups, List.mem_map] at h
  obtain ⟨entry, hentry, hkey⟩ := h
  exact List.ne_nil_of_mem (mem_runOf.2 ⟨hentry, hkey⟩)

/-- The keys of a sorted index ascend strictly. -/
theorem pairwise_runKeys (h : index.Pairwise Before) :
    (runKeys index).Pairwise fun k l => compareBytes k l = .lt := by
  have hle : (index.map (·.1)).Pairwise fun k l => k ≠ l → compareBytes k l = .lt := by
    rw [List.pairwise_map]
    refine h.imp fun hbefore hne => ?_
    exact (before_iff.1 hbefore).resolve_right fun heq => hne heq.1
  have hne : (runKeys index).Pairwise (· ≠ ·) := nodup_eraseDups _
  exact ((hle.sublist (sublist_eraseDups _)).and hne).imp fun hpair => hpair.1 hpair.2

/-- The entries of the keys, key by key, are the sorted index. -/
theorem flatten_runOf (h : index.Pairwise Before) :
    ((runKeys index).map (runOf index)).flatten = index := by
  have hflat : ((runKeys index).map (runOf index)).flatten.Pairwise Before := by
    rw [List.pairwise_flatten, List.forall_mem_map, List.pairwise_map]
    refine ⟨fun key _ => h.sublist List.filter_sublist, (pairwise_runKeys h).imp ?_⟩
    intro k l hlt a ha b hb
    rw [before_iff, (mem_runOf.1 ha).2, (mem_runOf.1 hb).2]
    exact .inl hlt
  refine hflat.eq_of_mem_iff h fun entry => ?_
  rw [List.mem_flatten]
  simp only [List.mem_map, exists_exists_and_eq_and, mem_runOf]
  constructor
  · exact fun ⟨key, _, hentry, _⟩ => hentry
  · intro hentry
    exact ⟨entry.1, List.mem_eraseDups.2 (List.mem_map_of_mem hentry), hentry, rfl⟩

/-- The runs of equal keys in a sorted index are all entries of one key each. -/
theorem splitBy_key (h : index.Pairwise Before) :
    index.splitBy (fun a b => a.1 == b.1) = (runKeys index).map (runOf index) := by
  refine List.splitBy_eq_iff.2 ⟨(flatten_runOf h).symm, ?nonempty, ?equal, ?different⟩
  case nonempty =>
    rw [List.mem_map]
    rintro ⟨key, hkey, hnil⟩
    exact runOf_ne_nil hkey hnil
  case equal =>
    rw [List.forall_mem_map]
    intro key _
    refine List.Pairwise.isChain (List.pairwise_of_forall_mem_list fun a ha b hb => ?_)
    rw [(mem_runOf.1 ha).2, (mem_runOf.1 hb).2, beq_self_eq_true]
  case different =>
    rw [List.isChain_map]
    refine (pairwise_runKeys h).isChain.imp_of_mem_imp fun k l hk hl hlt => ?_
    refine ⟨runOf_ne_nil hk, runOf_ne_nil hl, ?_⟩
    rw [(mem_runOf.1 (List.getLast_mem _)).2, (mem_runOf.1 (List.head_mem _)).2,
      beq_eq_false_iff_ne]
    rintro rfl
    rw [compareBytes_self] at hlt
    cases hlt

end Runs

/-! ### Records out of their slots -/

theorem takeSlots_cons (slots : Array (Option Record)) (i : Nat) (numbers : List Nat) :
    takeSlots slots (i :: numbers) =
      (slots[i]?.join.toList ++ (takeSlots (slots.setIfInBounds i none) numbers).1,
        (takeSlots (slots.setIfInBounds i none) numbers).2) := rfl

/-- Slots from which different numbers are taken give the records that they have held from the
start, and the other slots keep theirs. -/
theorem takeSlots_spec {numbers : List Nat} (h : numbers.Nodup) (slots : Array (Option Record)) :
    (takeSlots slots numbers).1 = numbers.filterMap (fun i => slots[i]?.join) ∧
      ∀ j ∉ numbers, (takeSlots slots numbers).2[j]? = slots[j]? := by
  induction numbers generalizing slots with
  | nil => exact ⟨rfl, fun _ _ => rfl⟩
  | cons i numbers ih =>
    obtain ⟨hi, hnumbers⟩ := List.nodup_cons.1 h
    obtain ⟨hmembers, hleft⟩ := ih hnumbers (slots.setIfInBounds i none)
    have hkept : ∀ j, j ≠ i → (slots.setIfInBounds i none)[j]? = slots[j]? := fun j hj =>
      Array.getElem?_setIfInBounds_ne (Ne.symm hj)
    have hrest : ∀ j ∈ numbers, (slots.setIfInBounds i none)[j]?.join = slots[j]?.join := by
      intro j hj
      rw [hkept j (ne_of_mem_of_not_mem hj hi)]
    rw [takeSlots_cons]
    constructor
    · rw [hmembers, List.filterMap_congr hrest, List.filterMap_cons]
      cases slots[i]?.join <;> rfl
    · intro j hj
      obtain ⟨hne, hj⟩ := not_or.1 (mt List.mem_cons.2 hj)
      rw [hleft j hj, hkept j hne]

/-- Records as a group, with the value that the first one has under a name. -/
def groupWith (name : String) (members : List Record) : Value × List Record :=
  (members.head?.elim .null (Record.value · name), members)

theorem takeRuns_cons (name : String) (slots : Array (Option Record))
    (run : List (List UInt8 × Nat)) (runs : List (List (List UInt8 × Nat))) :
    takeRuns name slots (run :: runs) =
      groupWith name (takeSlots slots (run.map (·.2))).1 ::
        takeRuns name (takeSlots slots (run.map (·.2))).2 runs := rfl

/-- Runs with different numbers get the records that the slots have held from the start. -/
theorem takeRuns_eq (name : String) {runs : List (List (List UInt8 × Nat))}
    (h : (runs.flatMap fun run => run.map (·.2)).Nodup) (slots : Array (Option Record)) :
    takeRuns name slots runs = runs.map fun run =>
      groupWith name ((run.map (·.2)).filterMap fun i => slots[i]?.join) := by
  induction runs generalizing slots with
  | nil => rfl
  | cons run runs ih =>
    rw [List.flatMap_cons, List.nodup_append] at h
    obtain ⟨hrun, hruns, hdisjoint⟩ := h
    obtain ⟨hmembers, hleft⟩ := takeSlots_spec hrun slots
    rw [takeRuns_cons, hmembers, ih hruns, List.map_cons]
    congr 1
    refine List.map_congr_left fun later hlater => congrArg (groupWith name) ?_
    refine List.filterMap_congr fun i hi => ?_
    have hother : i ∉ run.map (·.2) := fun hmem =>
      hdisjoint i hmem i (List.mem_flatMap.2 ⟨later, hlater, hi⟩) rfl
    rw [hleft i hother]

/-- The numbers in a run of a sorted index ascend. -/
theorem pairwise_numbers_runOf {index : List (List UInt8 × Nat)} (h : index.Pairwise Before)
    (key : List UInt8) : ((runOf index key).map (·.2)).Pairwise (· < ·) := by
  rw [List.pairwise_map]
  refine (h.sublist List.filter_sublist).imp_of_mem fun {a b} ha hb hbefore => ?_
  obtain hlt | ⟨-, hlt⟩ := before_iff.1 hbefore
  · rw [(mem_runOf.1 ha).2, (mem_runOf.1 hb).2, compareBytes_self] at hlt
    cases hlt
  · exact hlt

/-- The records at the numbers of a run are those of its key. -/
theorem filterMap_runOf (name : String) (records : List Record) (key : List UInt8) :
    ((runOf (keyIndex name records) key).map (·.2)).filterMap (records[·]?) =
      records.filter (keyUnder name · == key) := by
  rw [filterMap_getElem?_ascending records
    (pairwise_numbers_runOf (pairwise_keyIndex name records) key), atPositions]
  have hmem : ∀ entry ∈ records.zipIdx,
      ((runOf (keyIndex name records) key).map (·.2)).contains entry.2 =
        (keyUnder name entry.1 == key) := by
    rintro ⟨r, i⟩ hentry
    have hr := List.mem_zipIdx_iff_getElem?.1 hentry
    rw [Bool.eq_iff_iff, List.contains_iff_mem, beq_iff_eq, List.mem_map]
    constructor
    · rintro ⟨⟨key', i⟩, hrun, rfl⟩
      obtain ⟨hindex, rfl⟩ := mem_runOf.1 hrun
      obtain ⟨r', hr', hkey⟩ := mem_keyIndex.1 hindex
      rw [hr] at hr'
      rwa [Option.some.inj hr']
    · exact fun hkey => ⟨(key, i), mem_runOf.2 ⟨mem_keyIndex.2 ⟨r, hr, hkey⟩, rfl⟩, rfl⟩
  have hfilter : records.filter (keyUnder name · == key) =
      (records.zipIdx.filter fun entry => keyUnder name entry.1 == key).map (·.1) := by
    conv_lhs => rw [← List.zipIdx_map_fst 0 records, List.filter_map]
    rfl
  rw [List.filter_congr hmem, hfilter]

/-- The groups of some records in full: one for each key, by ascending key. -/
theorem groupBySorted_eq (name : String) {items : List Item} {records : List Record}
    (h : Item.records items = .ok records) : groupBySorted name items =
      .ok ((runKeys (keyIndex name records)).map fun key =>
        groupWith name (records.filter (keyUnder name · == key))) := by
  have hsplit := splitBy_key (pairwise_keyIndex name records)
  have hnumbers : (((keyIndex name records).splitBy fun a b => a.1 == b.1).flatMap
      fun run => run.map (·.2)).Nodup := by
    rw [List.flatMap_def, ← List.map_flatten, List.flatten_splitBy]
    exact nodup_numbers_keyIndex name records
  rw [groupBySorted, h, Except.map, takeRuns_eq name hnumbers, hsplit, List.map_map]
  congr 1
  refine List.map_congr_left fun key _ => congrArg (groupWith name) ?_
  rw [← filterMap_runOf]
  refine List.filterMap_congr fun i _ => ?_
  rw [List.getElem?_toArray, List.getElem?_map]
  cases records[i]? <;> rfl

theorem mem_runKeys_keyIndex {key : List UInt8} :
    key ∈ runKeys (keyIndex name records) ↔ ∃ r ∈ records, keyUnder name r = key := by
  rw [runKeys, List.mem_eraseDups, List.mem_map]
  constructor
  · rintro ⟨⟨key, i⟩, hentry, rfl⟩
    obtain ⟨r, hr, hkey⟩ := mem_keyIndex.1 hentry
    exact ⟨r, List.mem_of_getElem? hr, hkey⟩
  · rintro ⟨r, hr, hkey⟩
    obtain ⟨i, hi⟩ := List.mem_iff_getElem?.1 hr
    exact ⟨(key, i), mem_keyIndex.2 ⟨r, hi, hkey⟩, rfl⟩

/-- The records of the runs are those of the index in its order. -/
theorem perm_flatMap_runKeys (name : String) (records : List Record) :
    ((runKeys (keyIndex name records)).flatMap fun key =>
      records.filter (keyUnder name · == key)).Perm records := by
  have hperm := ((perm_keyIndex name records).map (·.2)).filterMap (records[·]?)
  simp only [← filterMap_runOf]
  rw [← List.filterMap_flatMap, ← List.map_flatMap, List.flatMap_def,
    flatten_runOf (pairwise_keyIndex name records)]
  rw [List.map_map] at hperm
  exact hperm.trans (.of_eq (filterMap_numbers_zipIdx records))

end Item

/-! ### The groups of a stream -/

namespace RecordStream

theorem exists_traversal {a : SpillArea} {s : RecordStream} {items : List Item}
    (h : (s.traverse a).1.map Traversal.items = .ok items) :
    ∃ t, (s.traverse a).1 = .ok t ∧ t.items = items := by
  cases ht : (s.traverse a).1 with
  | error fault => rw [ht] at h; cases h
  | ok t =>
    rw [ht] at h
    exact ⟨t, rfl, Except.ok.inj h⟩

/-- A stream of records has one group for each key that its records have under a name, by ascending
key. A group has the records of its key in the order of the stream and the value of the first of
them, so the groups together are the stream in another order. -/
theorem groupBySorted_spec {a : SpillArea} {s : RecordStream} {records : List Record}
    (h : (s.traverse a).1.map Traversal.items = .ok (records.map .ok)) (name : String) :
    ∃ (keys : List (List UInt8)) (groups : List (Value × List Record)),
      (do Item.groupBySorted name (← (s.traverse a).1).items) = .ok groups ∧
      keys.Pairwise (fun k l => compareBytes k l = .lt) ∧
      (∀ k, k ∈ keys ↔ ∃ r ∈ records, (Record.value r name).key = k) ∧
      groups.map (·.2) =
        keys.map (fun k => records.filter fun r => (Record.value r name).key == k) ∧
      (∀ group ∈ groups, ∃ first, group.2.head? = some first ∧
        group.1 = Record.value first name) ∧
      (groups.flatMap (·.2)).Perm records := by
  obtain ⟨t, ht, hitems⟩ := exists_traversal h
  have hgroups : (do Item.groupBySorted name (← (s.traverse a).1).items) =
      .ok ((Item.runKeys (Item.keyIndex name records)).map fun key =>
        Item.groupWith name (records.filter (Item.keyUnder name · == key))) := by
    show (s.traverse a).1.bind _ = _
    rw [ht, Except.bind, hitems, Item.groupBySorted_eq name (Item.records_map_ok records)]
  refine ⟨Item.runKeys (Item.keyIndex name records), _, hgroups, ?keys, ?known, ?members, ?values,
    ?whole⟩
  case keys => exact Item.pairwise_runKeys (Item.pairwise_keyIndex name records)
  case known => exact fun key => Item.mem_runKeys_keyIndex
  case members =>
    rw [List.map_map]
    rfl
  case values =>
    rw [List.forall_mem_map]
    intro key hkey
    obtain ⟨r, hr, hrkey⟩ := Item.mem_runKeys_keyIndex.1 hkey
    have hmem : r ∈ records.filter (Item.keyUnder name · == key) := by
      rw [List.mem_filter, beq_iff_eq]
      exact ⟨hr, hrkey⟩
    obtain ⟨first, rest, hcons⟩ := List.exists_cons_of_ne_nil (List.ne_nil_of_mem hmem)
    rw [Item.groupWith, hcons]
    exact ⟨first, rfl, rfl⟩
  case whole =>
    rw [List.flatMap_map]
    exact Item.perm_flatMap_runKeys name records

/-- Records of which two have no value, and two the same value as numbers of different kinds. -/
def mixedCounts : List Record :=
  [[("count", .float (.ofInt 2))], [("kind", .text "pear")], [("count", .int 1)],
    [("count", .int 2)], [("count", .null)]]

theorem groupBySorted_spec_mixedCounts :
    ∃ groups : List (Value × List Record), (do
        Item.groupBySorted "count" (← ((materialized mixedCounts).traverse {}).1).items) =
      .ok groups ∧
      [[("count", .float (.ofInt 2))], [("count", .int 2)]] ∈ groups.map (·.2) ∧
      [[("kind", .text "pear")], [("count", .null)]] ∈ groups.map (·.2) ∧
      (groups.flatMap (·.2)).Perm mixedCounts := by
  have htraverse : ((materialized mixedCounts).traverse {}).1.map Traversal.items =
      .ok (mixedCounts.map .ok) := congrArg Except.ok (Traversal.items_ofItems _)
  obtain ⟨keys, groups, hgroups, -, hknown, hmembers, -, hperm⟩ :=
    groupBySorted_spec htraverse "count"
  have htwo : (Value.int 2).key ∈ keys :=
    (hknown _).2 ⟨[("count", .int 2)], by decide, rfl⟩
  have hnull : Value.null.key ∈ keys :=
    (hknown _).2 ⟨[("count", .null)], by decide, rfl⟩
  refine ⟨groups, hgroups, hmembers ▸ List.mem_map.2 ⟨_, htwo, ?_⟩,
    hmembers ▸ List.mem_map.2 ⟨_, hnull, ?_⟩, hperm⟩ <;> decide +kernel

end RecordStream

end RecordFlow
