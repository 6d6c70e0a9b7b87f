import RecordFlow.Proofs.Relation.Exchange
import RecordFlow.Proofs.Spill.RoundTrip

/-!
# Floating-point numbers in stored records

A record that is written and read back, to a spill file or as a line of a relation, has its finite
floating-point numbers as the reader of JSON finds them (`createFrom_scan_reread`). A number whose
digits fit 53 bits and whose power of ten is at most `10 ^ 22` is found again, and others can come
back as a neighbour.
-/

namespace RecordFlow

namespace SpillArea

/-- A store that holds the lines of some records is scanned as what the reader makes of them. -/
theorem Holds.scan_reread {a : SpillArea} {store : SpillStore} (records : List ProperRecord)
    (h : a.Holds store.id (fileText (records.map (·.val))))
    (hsize : store.byteCount = (fileText (records.map (·.val))).utf8ByteSize)
    (hlevels : ∀ r ∈ records, r.val.levels ≤ Json.maxDepth) :
    a.scan store = .ok (records.map fun r => .ok r.val.reread) := by
  have hread : ∀ r ∈ records.map (·.val), Record.ofLine? r.line.toList = some r.reread := by
    refine List.forall_mem_map.2 fun r hr => ?_
    rw [Record.ofLine?_line_of_levels r.property, if_pos (hlevels r hr)]
  rw [h.scan hsize hread, List.map_map]
  rfl

/-- Records can be put into a spill store in any state of the area. While the store can be opened,
which it can at first, it is scanned as the same records in their order, but with every finite
floating-point number as the reader of JSON makes it of its digits, and every timestamp as its
written form is read. The lines of a relation are read in the same way. A number is found again if
its digits fit 53 bits and its power of ten is at most `10 ^ 22`. -/
theorem createFrom_scan_reread {a : SpillArea} (ha : Reaches {} a) (config : SpillConfig)
    {records : List ProperRecord} (h : ∀ r ∈ records, r.val.levels ≤ Json.maxDepth)
    {relation : Relation} (hrelation : relation.Writable) :
    (∃ store b, a.createFrom config (records.map fun r => .ok r.val) = (.ok store, b) ∧
      b.isDisposed store.id = false ∧
      ∀ c, b.Reaches c → c.isDisposed store.id = false →
        c.scan store = .ok (records.map fun r => .ok r.val.reread)) ∧
    JsonLines.read (JsonLines.write relation) = .ok relation.reread ∧
    ∀ x : Binary64, x.isFinite → x.printed.1 ≤ 2 ^ 53 → x.printed.2.natAbs ≤ 22 →
      x.reread = x := by
  refine ⟨?_, JsonLines.read_write hrelation, fun x => Binary64.reread_eq_self⟩
  have hitems : (records.map fun r => (.ok r.val : Item)) = (records.map (·.val)).map .ok :=
    List.map_map.symm
  rw [hitems]
  have hholds := holds_fileText_create (numbered_empty.reaches ha) config (records.map (·.val))
  refine ⟨_, _, createFrom_map_ok a config _, hholds.isDisposed, fun c hbc hopen => ?_⟩
  exact (hholds.reaches hbc hopen).scan_reread records (byteCount_create _ _ _) h

/-- A record of one floating-point number. -/
def numberRecord (x : Binary64) : Record :=
  [("f", .float x)]

theorem reread_numberRecord {x : Binary64} (hx : x.isFinite) :
    (numberRecord x).reread = numberRecord x.reread := by
  simp [numberRecord, Record.reread, Value.rereadFields, Value.reread, Value.rereadFloat, hx]

/-- The only name of the record is distinct. -/
def properNumberRecord (x : Binary64) : ProperRecord :=
  ⟨numberRecord x, List.nodup_singleton _, trivial, trivial⟩

theorem levels_numberRecord (x : Binary64) : (numberRecord x).levels ≤ Json.maxDepth := by
  simp [numberRecord, Record.levels, Value.fieldLevels, Value.levels, Json.maxDepth]

/-- The number `0.9086840169884375`, whose digits do not fit 53 bits. -/
def driftingNumber : Binary64 :=
  ⟨0x3FED13F080EB9FB9⟩

theorem reread_driftingNumber : driftingNumber.reread = ⟨0x3FED13F080EB9FBA⟩ := by
  decide +kernel

theorem writable_driftingNumber : (Relation.ofRecords [numberRecord driftingNumber]).Writable := by
  refine ⟨(Relation.wellFormed_ofRecords [(properNumberRecord driftingNumber).named]).shape, ?_,
    by decide, by decide⟩
  intro entry hentry
  have hdomain : entry = ("f", { kind := .numeric }) := List.mem_singleton.1 hentry
  rw [hdomain]
  exact ⟨nofun, nofun, nofun, nofun⟩

/-- The number `0.25` comes back and `0.9086840169884375` does not, from a spill store and from the
lines of a relation. -/
theorem createFrom_scan_reread_numberRecords :
    (∃ store b, createFrom {} .default [.ok (numberRecord ⟨0x3FD0000000000000⟩),
        .ok (numberRecord driftingNumber)] = (.ok store, b) ∧
      b.scan store = .ok [.ok (numberRecord ⟨0x3FD0000000000000⟩),
        .ok (numberRecord ⟨0x3FED13F080EB9FBA⟩)]) ∧
    (JsonLines.read (JsonLines.write (.ofRecords [numberRecord driftingNumber]))).map (·.records) =
      .ok [numberRecord ⟨0x3FED13F080EB9FBA⟩] := by
  have hrecords : ∀ r ∈ [⟨0x3FD0000000000000⟩, driftingNumber].map properNumberRecord,
      r.val.levels ≤ Json.maxDepth :=
    List.forall_mem_map.2 fun x _ => levels_numberRecord x
  obtain ⟨⟨store, b, hcreate, hopen, hscan⟩, hlines, hexact⟩ :=
    createFrom_scan_reread .refl .default hrecords writable_driftingNumber
  have hquarter : (⟨0x3FD0000000000000⟩ : Binary64).reread = ⟨0x3FD0000000000000⟩ :=
    hexact _ (by decide) (by decide +kernel) (by decide +kernel)
  refine ⟨⟨store, b, hcreate, ?_⟩, ?_⟩
  · rw [hscan b .refl hopen]
    simp only [List.map_cons, List.map_nil, properNumberRecord]
    rw [reread_numberRecord (by decide), reread_numberRecord (by decide), hquarter,
      reread_driftingNumber]
  · rw [hlines]
    show Except.ok [(numberRecord driftingNumber).reread] = _
    rw [reread_numberRecord (by decide), reread_driftingNumber]

/-- Not every finite number comes back from a spill store. -/
theorem createFrom_scan_not_of_number :
    ¬ ∀ (config : SpillConfig) (x : Binary64) (store : SpillStore) (b : SpillArea), x.isFinite →
      createFrom {} config [.ok (numberRecord x)] = (.ok store, b) →
      b.scan store = .ok [.ok (numberRecord x)] := by
  intro hclaim
  let records : List ProperRecord := [properNumberRecord driftingNumber]
  have hholds := holds_fileText_create numbered_empty .default (records.map (·.val))
  have hscan := hholds.scan_reread records (byteCount_create _ _ _)
    (List.forall_mem_singleton.2 (levels_numberRecord driftingNumber))
  have hsame := hclaim .default driftingNumber _ _ (by decide)
    (createFrom_map_ok {} .default [numberRecord driftingNumber])
  have hreread : Except.ok [Except.ok (numberRecord driftingNumber)] =
      Except.ok [Except.ok (numberRecord driftingNumber).reread] := hsame.symm.trans hscan
  rw [reread_numberRecord (by decide), reread_driftingNumber] at hreread
  cases hreread

end SpillArea

end RecordFlow
