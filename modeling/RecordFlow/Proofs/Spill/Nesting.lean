import RecordFlow.Proofs.Stream.Persist
import RecordFlow.Proofs.Value.Nesting

/-!
# Deep records in a spill store

The writer of a spill file takes records however deep they nest, and the reader does not: of the
records in a store every one comes back that has at most `Json.maxDepth` levels, and a failure in
the place of every other one (`createFrom_scan_levels`). A stream that is moved to a spill file is
such a store.
-/

namespace RecordFlow

/-- What the line of a record is scanned as at a position. -/
def Record.scanned (r : Record) (position : Nat) : Item :=
  if r.levels ≤ Json.maxDepth then .ok r.reread else .error (.undecodableRecord position)

theorem readSpilled_line_eq (r : ProperRecord) (position : Nat) :
    readSpilled r.val.line.toList position = r.val.scanned position := by
  rw [readSpilled, Record.ofLine?_line_of_levels r.property, Record.scanned]
  by_cases hlevels : r.val.levels ≤ Json.maxDepth
  · rw [if_pos hlevels, if_pos hlevels]
  · rw [if_neg hlevels, if_neg hlevels]

/-- The lines of records are scanned one by one. -/
theorem scanLines_map_line_eq (records : List ProperRecord) :
    scanLines (records.map (·.val.line.toList)) =
      records.zipIdx.map fun (r, position) => r.val.scanned position := by
  rw [scanLines, List.zipIdx_map, List.map_map]
  exact List.map_congr_left fun (r, position) _ => readSpilled_line_eq r position

namespace SpillArea

/-- A store that holds the lines of some records is scanned line by line. -/
theorem Holds.scan_eq {a : SpillArea} {store : SpillStore} (records : List ProperRecord)
    (h : a.Holds store.id (fileText (records.map (·.val))))
    (hsize : store.byteCount = (fileText (records.map (·.val))).utf8ByteSize) :
    a.scan store = .ok (records.zipIdx.map fun (r, position) => r.val.scanned position) := by
  have hlines : (records.map (·.val)).map (·.line.toList) =
      records.map (·.val.line.toList) := List.map_map
  rw [SpillArea.scan, h.lines hsize, Except.map, hlines, scanLines_map_line_eq]

/-- Records can be put into a spill store in any state of the area, however deep they nest, and a
stream of them can be moved to a spill file, which makes the same store. While the store can be
opened, which it can at first, it is scanned as the records in their order, but with a failure in
the place of each record that has more levels than the reader goes down. Without floating-point
numbers only a timestamp in a leap second inside a minute is scanned as something else. -/
theorem createFrom_scan_levels {a : SpillArea} (ha : Reaches {} a) (config : SpillConfig)
    (records : List ProperRecord) :
    ∃ store b, a.createFrom config (records.map fun r => .ok r.val) = (.ok store, b) ∧
      (∀ (s s' : RecordStream) (t : Traversal), s.storageClass ≠ .spilled →
        s.traverse a = (.ok t, s') → (t.items = records.map fun r => .ok r.val) →
        s.persist a config .spilled = (.ok true, .spilled store, b)) ∧
      b.isDisposed store.id = false ∧
      (∀ c, b.Reaches c → c.isDisposed store.id = false →
        c.scan store = .ok (records.zipIdx.map fun (r, position) =>
          if r.val.levels ≤ Json.maxDepth then .ok r.val.reread
          else .error (.undecodableRecord position))) ∧
      ∀ r ∈ records, r.val.hasFloat = false →
        (r.val.reread = r.val ↔ r.val.hasInnerLeap = false) := by
  have hitems : (records.map fun r => (.ok r.val : Item)) = (records.map (·.val)).map .ok :=
    List.map_map.symm
  rw [hitems]
  have hholds := holds_fileText_create (numbered_empty.reaches ha) config (records.map (·.val))
  have hmoved (s s' : RecordStream) (t : Traversal) (hclass : s.storageClass ≠ .spilled)
      (htraverse : s.traverse a = (.ok t, s')) (hitems : t.items = (records.map (·.val)).map .ok) :
      s.persist a config .spilled =
        (.ok true, .spilled (a.create config (records.map (·.val))).1,
          (a.create config (records.map (·.val))).2) := by
    have ht : (s.traverse a).1 = .ok t := by rw [htraverse]
    exact RecordStream.persist_done config (by decide) (Ne.symm hclass) ht hitems
  refine ⟨_, _, createFrom_map_ok a config _, hmoved, hholds.isDisposed, ?_,
    fun r _ => Record.reread_eq_self_iff⟩
  intro c hbc hopen
  exact (hholds.reaches hbc hopen).scan_eq records (byteCount_create _ _ _)

/-- A record whose only attribute is some lists, one in another. -/
def deepRecord (n : Nat) : Record :=
  [("a", Value.nested n .null)]

theorem levels_deepRecord (n : Nat) : (deepRecord n).levels = 2 * n + 1 := by
  simp [deepRecord, Record.levels, Value.fieldLevels, Value.levels_nested, Value.levels]

/-- The names of records of lists are distinct. -/
def properDeepRecord (n : Nat) : ProperRecord :=
  ⟨deepRecord n, List.pairwise_singleton _ _, Value.wellFormed_nested n trivial, trivial⟩

/-- A stream of a record with sixty-three lists and one with sixty-four: both are moved, and only
the first comes back. -/
theorem createFrom_scan_levels_deepRecords :
    ∃ store b,
      (RecordStream.through (.ofRecords [deepRecord 63, deepRecord 64])).persist {} .default
        .spilled = (.ok true, .spilled store, b) ∧
      b.scan store = .ok [.ok (deepRecord 63), .error (.undecodableRecord 1)] := by
  obtain ⟨store, b, -, hmoved, hopen, hscan, hsame⟩ :=
    createFrom_scan_levels .refl .default [properDeepRecord 63, properDeepRecord 64]
  have hread : (deepRecord 63).reread = deepRecord 63 :=
    (hsame (properDeepRecord 63) List.mem_cons_self (by decide)).2 (by decide)
  refine ⟨store, b, ?_, ?_⟩
  · exact hmoved _ _ _ (by decide) rfl (Traversal.items_ofItems _)
  · rw [hscan b .refl hopen]
    simp [properDeepRecord, levels_deepRecord, Json.maxDepth, hread]

/-- Not every record that a spill store takes can be read back. -/
theorem createFrom_scan_not_of_deepRecord :
    ¬ ∀ (config : SpillConfig) (records : List ProperRecord) (store : SpillStore) (b : SpillArea),
      (∀ r ∈ records, r.val.hasFloat = false) →
      createFrom {} config (records.map fun r => .ok r.val) = (.ok store, b) →
      ∀ items, b.scan store = .ok items → ∀ item ∈ items, ∃ r, item = .ok r := by
  intro hclaim
  have hholds := holds_fileText_create numbered_empty .default [deepRecord 64]
  have hscan : (create {} .default [deepRecord 64]).2.scan
      (create {} .default [deepRecord 64]).1 = .ok [(deepRecord 64).scanned 0] :=
    hholds.scan_eq [properDeepRecord 64] (byteCount_create _ _ _)
  obtain ⟨r, hr⟩ := hclaim .default [properDeepRecord 64] _ _ (by decide) rfl _ hscan _
    (List.mem_singleton_self _)
  rw [Record.scanned, if_neg (by rw [levels_deepRecord]; decide)] at hr
  cases hr

end SpillArea

end RecordFlow
