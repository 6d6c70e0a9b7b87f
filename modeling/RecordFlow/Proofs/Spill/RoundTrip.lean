import RecordFlow.Proofs.Spill.Area
import RecordFlow.Proofs.Spill.File

/-!
# A spill store gives its records back

`createFrom_scan` joins what the lower modules say about records, lines and files: a store that is
made of some records has one line for each of them in its file, and as long as it can be opened,
every scan yields the same records in the same order, whatever happens to other stores meanwhile.
Only a timestamp in a leap second inside a minute does not come back.
-/

namespace RecordFlow

theorem Item.records_map_ok (records : List Record) :
    Item.records (records.map .ok) = .ok records := by
  induction records with
  | nil => rfl
  | cons r records ih => simp [Item.records, ih, Except.map]

namespace SpillArea

/-- The store that an area creates next for some records. -/
theorem create_eq (a : SpillArea) (config : SpillConfig) (records : List Record) :
    (a.create config records).1 =
      ⟨a.next, records.length, (fileText records).utf8ByteSize⟩ := by
  simp only [create, SpillWriter.count_writeAll, SpillWriter.byteCount_writeAll]

theorem byteCount_create (a : SpillArea) (config : SpillConfig) (records : List Record) :
    (a.create config records).1.byteCount = (fileText records).utf8ByteSize := by
  rw [create_eq]

/-- Records that come without a failure are put into a store. -/
theorem createFrom_map_ok (a : SpillArea) (config : SpillConfig) (records : List Record) :
    a.createFrom config (records.map .ok) =
      (.ok (a.create config records).1, (a.create config records).2) := by
  rw [createFrom, Item.records_map_ok]

/-- A store whose file is that of some records has their lines. -/
theorem Holds.lines {a : SpillArea} {store : SpillStore} {records : List Record}
    (h : a.Holds store.id (fileText records))
    (hsize : store.byteCount = (fileText records).utf8ByteSize) :
    a.lines store = .ok (records.map (·.line.toList)) := by
  unfold SpillArea.lines
  rw [h.isDisposed, if_neg Bool.false_ne_true, h.contents, hsize]
  split
  · next hzero =>
    rw [(fileText_eq_empty_iff records).1 hzero]
    rfl
  · simp only [spillLines_fileText]

/-- A store that holds the lines of some records is scanned as what each line is read as. -/
theorem Holds.scan {a : SpillArea} {store : SpillStore} {records : List Record}
    {f : Record → Record} (h : a.Holds store.id (fileText records))
    (hsize : store.byteCount = (fileText records).utf8ByteSize)
    (hread : ∀ r ∈ records, Record.ofLine? r.line.toList = some (f r)) :
    a.scan store = .ok (records.map fun r => .ok (f r)) := by
  rw [SpillArea.scan, h.lines hsize, Except.map]
  exact congrArg Except.ok (scanLines_map_line hread)

/-- A new store can be opened and holds the lines of its records. -/
theorem holds_fileText_create {a : SpillArea} (h : a.Numbered) (config : SpillConfig)
    (records : List Record) :
    (a.create config records).2.Holds (a.create config records).1.id (fileText records) := by
  have hnew := holds_create h config records
  rwa [SpillWriter.contents_writeAll] at hnew

/-- A store made of some records can be made in any state of the area. Its file has the line of
each record in order, its counts are those of the records and of the file, and while it can be
opened, which it can at first, it is scanned as what the line of each record is read as. This is the
same record, NaN up to its payload, unless a timestamp in it is in a leap second inside a minute. -/
theorem createFrom_scan {a : SpillArea} (ha : Reaches {} a) (config : SpillConfig)
    {records : List Record} (h : ∀ r ∈ records, r.Spillable) :
    ∃ store b, a.createFrom config (records.map .ok) = (.ok store, b) ∧
      store.count = records.length ∧
      b.contents? store.id = some (String.join (records.map fun r => r.line ++ "\n")) ∧
      store.byteCount = (String.join (records.map fun r => r.line ++ "\n")).utf8ByteSize ∧
      b.isDisposed store.id = false ∧
      (∀ c, b.Reaches c → c.isDisposed store.id = false →
        c.contents? store.id = b.contents? store.id ∧
        c.scan store = .ok (records.map fun r => .ok r.reread)) ∧
      ∀ r ∈ records, r.reread = r.quiet ↔ r.hasInnerLeap = false := by
  have hcreate := createFrom_map_ok a config records
  have hholds := holds_fileText_create (numbered_empty.reaches ha) config records
  rw [create_eq] at hcreate hholds
  refine ⟨_, _, hcreate, rfl, hholds.contents, rfl, hholds.isDisposed, ?_,
    fun r hr => (h r hr).reread_eq_quiet_iff⟩
  intro c hbc hopen
  have hlater := hholds.reaches hbc hopen
  exact ⟨hlater.contents.trans hholds.contents.symm,
    hlater.scan rfl fun r hr => (h r hr).ofLine?_line⟩

/-- A record with a line break, a leap second at the end of a minute and numbers of all sorts, some
of them inside. -/
def nestedRecord : Record :=
  [("text", .text "line\n\"quoted\"\\\x01"),
    ("inside", .struct [("list", .list [.null, .bool true, .int (-5), .list []]),
      ("when", .timestamp
        ⟨⟨-12, 6, 30, by decide, by decide, by decide⟩,
          ⟨23, 59, 59, 1500000000, by decide, by decide, by decide, by decide⟩⟩)]),
    ("numbers", .list [.float ⟨0x3FF8000000000000⟩, .float (.infinity true), .float ⟨1⟩,
      .float ⟨0x7FF0000000000001⟩, .float ⟨0x8000000000000000⟩])]

theorem createFrom_scan_nestedRecord :
    ∃ a store b, Reaches {} a ∧ nestedRecord.Spillable ∧
      a.createFrom ⟨none, 1, by decide⟩ [.ok nestedRecord, .ok []] = (.ok store, b) ∧
      b.scan store = .ok [.ok nestedRecord.quiet, .ok []] := by
  have ha : Reaches {} (SpillArea.dispose (create {} .default [[]]).2 0) :=
    .tail (.single (.create .default [[]])) (.dispose 0 (by decide))
  have hnested : nestedRecord.Spillable := by decide +kernel
  have hall : ∀ r ∈ [nestedRecord, []], r.Spillable := by decide +kernel
  obtain ⟨store, b, hcreate, -, -, -, hopen, hscan, hsame⟩ :=
    createFrom_scan ha ⟨none, 1, by decide⟩ hall
  have hread : nestedRecord.reread = nestedRecord.quiet :=
    (hsame nestedRecord List.mem_cons_self).2 (by decide)
  refine ⟨_, store, b, ha, hnested, hcreate, ?_⟩
  rw [(hscan b .refl hopen).2, List.map_cons, hread]
  rfl

/-- A timestamp in a leap second inside a minute can be put into a spill store, and the next second
is scanned. -/
theorem createFrom_scan_not_of_innerLeap :
    ∃ store b, createFrom {} .default [.ok [("t", .timestamp .innerLeap)]] = (.ok store, b) ∧
      b.contents? store.id =
        some "\x7b\"t\":\x7b\"Timestamp\":\"2021-03-04T05:06:08.500\"\x7d\x7d\n" ∧
      b.scan store = .ok [.ok [("t", .timestamp .behindInnerLeap)]] ∧
      Timestamp.behindInnerLeap ≠ .innerLeap := by
  have hspillable : Record.Spillable [("t", .timestamp .innerLeap)] := by decide +kernel
  have hholds := holds_fileText_create numbered_empty .default [[("t", .timestamp .innerLeap)]]
  have hscan := hholds.scan (byteCount_create _ _ _)
    (List.forall_mem_singleton.2 hspillable.ofLine?_line)
  have hread : Record.reread [("t", .timestamp .innerLeap)] =
      [("t", .timestamp .behindInnerLeap)] := by
    simp [Record.reread, Value.rereadFields, Value.reread, Timestamp.reread_innerLeap]
  rw [List.map_singleton, hread] at hscan
  refine ⟨_, _, rfl, hholds.contents.trans ?_, hscan, by decide⟩
  decide +kernel

end SpillArea

end RecordFlow
