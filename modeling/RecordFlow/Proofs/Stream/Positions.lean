import Mathlib.Data.List.Sort
import RecordFlow.Proofs.Distinct
import RecordFlow.Proofs.Spill.Reader
import RecordFlow.Proofs.Stream.Persist

/-!
# The records at some positions

`atPositions` are the elements of a list at some positions, whatever the order of the positions and
however often each is mentioned. A stream in memory indexes its records, a spilled one reads the
lines of its file that are wanted, and a stream-through one leaves out items as they come. In
range all of them yield the records at the positions (`RecordStream.pick_spec`). Past the end, a
stream that keeps its records refuses, and a stream-through one yields what there is.
-/

namespace RecordFlow

/-! ### Positions in order -/

theorem mem_sorted_eraseDups {positions : List Nat} {p : Nat} :
    p ∈ positions.mergeSort.eraseDups ↔ p ∈ positions := by
  rw [List.mem_eraseDups, List.mem_mergeSort]

/-- Sorted positions without repeats ascend. -/
theorem pairwise_sorted_eraseDups (positions : List Nat) :
    positions.mergeSort.eraseDups.Pairwise (· < ·) := by
  have hmerge : positions.mergeSort.Pairwise fun p q => decide (p ≤ q) = true :=
    List.pairwise_mergeSort (fun p q s => by simp only [decide_eq_true_eq]; exact Nat.le_trans)
      (fun p q => by simp only [Bool.or_eq_true, decide_eq_true_eq]; exact Nat.le_total p q)
      positions
  have hsorted : positions.mergeSort.Pairwise (· ≤ ·) := hmerge.imp of_decide_eq_true
  have hle := hsorted.sublist (sublist_eraseDups positions.mergeSort)
  have hne : positions.mergeSort.eraseDups.Pairwise (· ≠ ·) := nodup_eraseDups _
  exact (hle.and hne).imp fun h => Nat.lt_of_le_of_ne h.1 h.2

/-- The last of ascending positions is the greatest. -/
theorem le_of_getLast?_eq_some {positions : List Nat} (h : positions.Pairwise (· < ·)) {last : Nat}
    (hlast : positions.getLast? = some last) {p : Nat} (hp : p ∈ positions) : p ≤ last := by
  obtain ⟨front, rfl⟩ := List.getLast?_eq_some_iff.1 hlast
  rcases List.mem_append.1 hp with hp | hp
  · exact Nat.le_of_lt ((List.pairwise_append.1 h).2.2 p hp last (List.mem_singleton_self last))
  · exact Nat.le_of_eq (List.mem_singleton.1 hp)

/-- The elements at some positions, each once and in the order of the list. -/
def atPositions {α : Type} (as : List α) (positions : List Nat) : List α :=
  (as.zipIdx.filter fun entry => positions.contains entry.2).map (·.1)

section AtPositions

variable {α β : Type} {as : List α} {positions : List Nat}

theorem atPositions_map (as : List α) (f : α → β) (positions : List Nat) :
    atPositions (as.map f) positions = (atPositions as positions).map f := by
  rw [atPositions, atPositions, List.zipIdx_map, List.filter_map, List.map_map, List.map_map]
  rfl

theorem atPositions_sorted_eraseDups (as : List α) (positions : List Nat) :
    atPositions as positions.mergeSort.eraseDups = atPositions as positions := by
  have hsame : ∀ p, positions.mergeSort.eraseDups.contains p = positions.contains p := by
    intro p
    rw [Bool.eq_iff_iff, List.contains_iff_mem, List.contains_iff_mem, mem_sorted_eraseDups]
  simp only [atPositions, hsame]

/-- The numbers of numbered elements lead back to the elements. -/
theorem map_getElem?_numbers {numbered : List (α × Nat)} (h : numbered ⊆ as.zipIdx) :
    (numbered.map (·.2)).map (as[·]?) = numbered.map fun entry => some entry.1 := by
  rw [List.map_map]
  exact List.map_congr_left fun entry hentry => List.mem_zipIdx_iff_getElem?.1 (h hentry)

theorem filterMap_numbers {numbered : List (α × Nat)} (h : numbered ⊆ as.zipIdx) :
    (numbered.map (·.2)).filterMap (as[·]?) = numbered.map (·.1) := by
  have hentry : ∀ entry ∈ numbered, as[entry.2]? = some entry.1 := fun entry hentry =>
    List.mem_zipIdx_iff_getElem?.1 (h hentry)
  rw [List.filterMap_map]
  exact (List.filterMap_congr hentry).trans (congrFun List.filterMap_eq_map numbered)

theorem filterMap_numbers_zipIdx (as : List α) :
    (as.zipIdx.map (·.2)).filterMap (as[·]?) = as := by
  rw [filterMap_numbers (List.Subset.refl _), List.zipIdx_map_fst]

/-- Positions that ascend lead to their elements one by one: both lists have the same elements with
their positions, in ascending order. -/
theorem filterMap_getElem?_ascending (as : List α) (h : positions.Pairwise (· < ·)) :
    positions.filterMap (as[·]?) = atPositions as positions := by
  let Before (entry later : α × Nat) : Prop := entry.2 < later.2
  have : Std.Irrefl Before := ⟨fun entry => Nat.lt_irrefl entry.2⟩
  have : Std.Antisymm Before := ⟨fun _ _ hlt hgt => absurd hgt (Nat.lt_asymm hlt)⟩
  have hindexed : (positions.filterMap fun p => as[p]?.map fun a => (a, p)).Pairwise Before := by
    refine List.Pairwise.filterMap _ (fun p q hlt entry hentry later hlater => ?_) h
    obtain ⟨a, -, rfl⟩ := Option.map_eq_some_iff.1 hentry
    obtain ⟨b, -, rfl⟩ := Option.map_eq_some_iff.1 hlater
    exact hlt
  have hnumbered : (as.zipIdx.filter fun entry => positions.contains entry.2).Pairwise Before :=
    (pairwise_snd_zipIdx as 0).sublist List.filter_sublist
  have hmem : ∀ entry, entry ∈ (positions.filterMap fun p => as[p]?.map fun a => (a, p)) ↔
      entry ∈ as.zipIdx.filter fun entry => positions.contains entry.2 := by
    rintro ⟨a, p⟩
    rw [List.mem_filter, List.mem_zipIdx_iff_getElem?, List.contains_iff_mem, List.mem_filterMap]
    constructor
    · rintro ⟨q, hq, hentry⟩
      obtain ⟨b, hb, heq⟩ := Option.map_eq_some_iff.1 hentry
      obtain ⟨rfl, rfl⟩ := Prod.mk.inj heq
      exact ⟨hb, hq⟩
    · rintro ⟨ha, hp⟩
      exact ⟨p, hp, Option.map_eq_some_iff.2 ⟨a, ha, rfl⟩⟩
  rw [atPositions, ← hindexed.eq_of_mem_iff hnumbered hmem, List.map_filterMap]
  refine List.filterMap_congr fun p _ => ?_
  simp [Function.comp_def]

end AtPositions

/-- The lines at some positions of a spill file are read as the records there. -/
theorem rest_ofLines_map_line {records : List Record} (h : ∀ r ∈ records, r.Survives)
    (targets : List Nat) :
    (PositionalReader.ofLines (records.map (·.line.toList)) targets).rest.1 =
      (atPositions records targets).map .ok := by
  rw [PositionalReader.rest_ofLines, List.zipIdx_map, List.filter_map, List.map_map, atPositions,
    List.map_map]
  refine List.map_congr_left fun entry hentry => ?_
  have hmem : entry.1 ∈ records :=
    List.mem_of_getElem? (List.mem_zipIdx_iff_getElem?.1 (List.mem_filter.1 hentry).1)
  exact readSpilled_line (h entry.1 hmem) entry.2

namespace Traversal

/-- The steps through the last position have the items at the positions. -/
theorem itemsOf_pickSteps {targets : List Nat} {last : Nat} (h : ∀ p ∈ targets, p ≤ last)
    (position : Nat) (steps : List Step) :
    itemsOf (pickSteps targets last position steps).1 =
      (((itemsOf steps).zipIdx position).filter fun entry => targets.contains entry.2).map
        (·.1) := by
  fun_induction pickSteps targets last position steps with
  | case1 position => rfl
  | case2 position store rest steps kept hrest ih =>
    rw [hrest] at ih
    exact ih
  | case3 position item rest hpast =>
    rw [itemsOf_nil, eq_comm, List.map_eq_nil_iff, List.filter_eq_nil_iff]
    intro entry hentry hcontains
    have hge := List.le_snd_of_mem_zipIdx hentry
    have hle := h entry.2 (List.contains_iff_mem.1 hcontains)
    omega
  | case4 position item rest hin steps kept hrest ih =>
    rw [hrest] at ih
    rw [itemsOf_item, List.zipIdx_cons, List.filter_cons]
    cases hcontains : targets.contains position with
    | true => simpa [hcontains] using ih
    | false => simpa [hcontains] using ih

/-- A pass through the last position yields the items at the positions. -/
theorem items_pick {targets : List Nat} {last : Nat} (h : ∀ p ∈ targets, p ≤ last)
    (t : Traversal) : (t.pick targets last).items = atPositions t.items targets :=
  itemsOf_pickSteps h 0 t.steps

end Traversal

namespace RecordStream

/-- A stream-through stream yields what it has at the positions. -/
theorem pick_through (a : SpillArea) (left : Traversal) (positions : List Nat) :
    ∃ t, ((through left).pick a positions).1 = .ok t ∧
      t.items = atPositions left.items positions := by
  rw [← atPositions_sorted_eraseDups]
  unfold pick
  dsimp only
  cases hlast : positions.mergeSort.eraseDups.getLast? with
  | none =>
    refine ⟨.empty, rfl, ?_⟩
    rw [List.getLast?_eq_none_iff.1 hlast]
    exact (filterMap_getElem?_ascending left.items .nil).trans rfl
  | some last =>
    have hle : ∀ p ∈ positions.mergeSort.eraseDups, p ≤ last := fun _ hp =>
      le_of_getLast?_eq_some (pairwise_sorted_eraseDups positions) hlast hp
    exact ⟨_, rfl, Traversal.items_pick hle left⟩

variable {a : SpillArea} {records : List Record} {s : RecordStream} {positions : List Nat}

/-- A stream that keeps its records yields those at the positions, and can do so again. -/
theorem Keeps.pick (h : s.Keeps a records) (hin : ∀ p ∈ positions, p < records.length) :
    ∃ t, s.pick a positions = (.ok t, s) ∧ t.items = (atPositions records positions).map .ok := by
  have hfind : ∀ p ∈ positions.mergeSort.eraseDups, ¬(records.length ≤ p) := fun p hp =>
    Nat.not_le_of_lt (hin p (mem_sorted_eraseDups.1 hp))
  cases s with
  | through left => exact h.elim
  | materialized kept =>
    obtain rfl : kept = records := h
    have hnone : positions.mergeSort.eraseDups.find? (kept.length ≤ ·) = none :=
      List.find?_eq_none.2 fun p hp => by simpa using hfind p hp
    refine ⟨.ofRecords (positions.mergeSort.eraseDups.filterMap (kept[·]?)), ?_, ?_⟩
    · simp only [RecordStream.pick, hnone]
    · rw [Traversal.ofRecords, Traversal.items_ofItems,
        filterMap_getElem?_ascending kept (pairwise_sorted_eraseDups positions),
        atPositions_sorted_eraseDups]
  | spilled store =>
    obtain ⟨hholds, hcount, hsize, hsurvive⟩ := h
    have hnone : positions.mergeSort.eraseDups.find? (store.count ≤ ·) = none :=
      List.find?_eq_none.2 fun p hp => by simpa [hcount] using hfind p hp
    have hreader : a.scanPositions store positions.mergeSort.eraseDups =
        .ok (.ofLines (records.map (·.line.toList)) positions.mergeSort.eraseDups) := by
      simp only [SpillArea.scanPositions, hnone, hholds.lines hsize, Except.map]
    refine ⟨.pinned store.id ((atPositions records positions).map .ok), ?_,
      Traversal.items_ofItems _⟩
    simp only [RecordStream.pick, hreader, Except.map, rest_ofLines_map_line hsurvive,
      atPositions_sorted_eraseDups]

/-- A stream that keeps its records has to have all positions. -/
theorem Keeps.pick_past (h : s.Keeps a records) (hout : ∃ p ∈ positions, records.length ≤ p) :
    ∃ fault, s.pick a positions = (.error fault, s) ∧ fault.kind = .invalidArgument := by
  have hfind : ∃ p, positions.mergeSort.eraseDups.find? (records.length ≤ ·) = some p := by
    obtain ⟨p, hp, hle⟩ := hout
    refine Option.isSome_iff_exists.1 (List.find?_isSome.2 ?_)
    exact ⟨p, mem_sorted_eraseDups.2 hp, decide_eq_true hle⟩
  obtain ⟨p, hp⟩ := hfind
  cases s with
  | through left => exact h.elim
  | materialized kept =>
    obtain rfl : kept = records := h
    exact ⟨.positionInStream p kept.length, by simp only [RecordStream.pick, hp], rfl⟩
  | spilled store =>
    rw [← h.2.1] at hp
    exact ⟨.positionInStore p store.count,
      by simp only [RecordStream.pick, SpillArea.scanPositions, hp, Except.map], rfl⟩

/-- The records at some positions, mentioned in any order and any number of times, do not depend on
the class of a stream, as long as there are so many records: every stream yields them in ascending
order, each once. If a position is past the end, a stream that keeps its records refuses it as an
invalid argument, and a stream-through stream yields the records at the other positions. -/
theorem pick_spec {a : SpillArea} (ha : SpillArea.Reaches {} a) (config : SpillConfig)
    {records : List Record} (h : ∀ r ∈ records, r.Survives) {left : Traversal}
    (hleft : left.items = records.map .ok) :
    ∃ store b, ofItems a config .spilled (records.map .ok) = (.ok (.spilled store), b) ∧
      b.isDisposed store.id = false ∧
      ∀ c, b.Reaches c → c.isDisposed store.id = false → ∀ positions,
        ((∀ p ∈ positions, p < records.length) →
          ∀ s ∈ [materialized records, spilled store, through left],
            ∃ t, (s.pick c positions).1 = .ok t ∧
              t.items = (atPositions records positions).map .ok) ∧
        ((∃ p ∈ positions, records.length ≤ p) →
          (∀ s ∈ [materialized records, spilled store],
            ∃ fault, s.pick c positions = (.error fault, s) ∧ fault.kind = .invalidArgument) ∧
          ∃ t, ((through left).pick c positions).1 = .ok t ∧
            t.items = (atPositions records positions).map .ok) := by
  have hclass : StorageClass.spilled ≠ .streamThrough := by decide
  have hkeeps : (spilled (a.create config records).1).Keeps (a.create config records).2 records :=
    (keeps_keep (SpillArea.numbered_empty.reaches ha) config hclass fun _ => h).2
  refine ⟨(a.create config records).1, (a.create config records).2, ?_, hkeeps.1.isDisposed, ?_⟩
  · rw [ofItems, SpillArea.createFrom_map_ok]
    rfl
  intro c hbc hopen positions
  have hkept : ∀ s ∈ [materialized records, spilled (a.create config records).1],
      s.Keeps c records := by
    intro s hs
    rcases List.mem_pair.1 hs with rfl | rfl
    · rfl
    · refine hkeeps.mono fun id hid text hholds => ?_
      obtain rfl := List.mem_singleton.1 hid
      exact hholds.reaches hbc hopen
  have hthrough : ∃ t, ((through left).pick c positions).1 = .ok t ∧
      t.items = (atPositions records positions).map .ok := by
    rw [← atPositions_map, ← hleft]
    exact pick_through c left positions
  refine ⟨fun hin s hs => ?_, fun hout => ⟨fun s hs => (hkept s hs).pick_past hout, hthrough⟩⟩
  have hsplit : s ∈ [materialized records, spilled (a.create config records).1] ∨
      s = through left := by
    simpa [or_assoc] using hs
  rcases hsplit with hs | rfl
  · obtain ⟨t, ht, hitems⟩ := (hkept s hs).pick hin
    exact ⟨t, by rw [ht], hitems⟩
  · exact hthrough

/-- Three records, the second one with a line break and the last one without attributes. -/
def threeRecords : List Record :=
  [[("n", .int 1), ("inside", .list [.null, .bool true])], [("text", .text "line\nbreak")], []]

/-- Positions with a repeat, the last record among them, and a position past the end. -/
theorem pick_spec_threeRecords :
    (∀ r ∈ threeRecords, r.Survives) ∧ ∃ store b,
      ofItems {} .default .spilled (threeRecords.map .ok) = (.ok (.spilled store), b) ∧
      (∀ s ∈ [materialized threeRecords, spilled store, through (.ofRecords threeRecords)],
        ∃ t, (s.pick b [2, 0, 2]).1 = .ok t ∧
          t.items = [.ok [("n", .int 1), ("inside", .list [.null, .bool true])], .ok []]) ∧
      (∀ s ∈ [materialized threeRecords, spilled store],
        ∃ fault, s.pick b [3, 1] = (.error fault, s) ∧ fault.kind = .invalidArgument) ∧
      ∃ t, ((through (.ofRecords threeRecords)).pick b [3, 1]).1 = .ok t ∧
        t.items = [.ok [("text", .text "line\nbreak")]] := by
  have hspillable : ∀ r ∈ threeRecords, r.Spillable := by decide
  have hread : ∀ r ∈ threeRecords, r.reread = r := by
    intro r hr
    rcases List.mem_cons.1 hr with rfl | hr
    · rfl
    rcases List.mem_pair.1 hr with rfl | rfl
    · rfl
    · rfl
  have hsurvive : ∀ r ∈ threeRecords, r.Survives := fun r hr =>
    (hspillable r hr).survives (hread r hr)
  have hleft : (Traversal.ofRecords threeRecords).items = threeRecords.map .ok :=
    Traversal.items_ofItems _
  have hstart : SpillArea.Reaches {} {} := .refl
  obtain ⟨store, b, hstore, hopen, hpick⟩ := pick_spec hstart .default hsurvive hleft
  have hlater := hpick b .refl hopen
  exact ⟨hsurvive, store, b, hstore, (hlater [2, 0, 2]).1 (by decide),
    (hlater [3, 1]).2 (by decide)⟩

end RecordStream

end RecordFlow
