import RecordFlow.Proofs.Spill.Nesting
import RecordFlow.Proofs.Stream.Positions

/-!
# A positional scan is a part of the full scan

A reader of some positions that is asked again and again yields what a full scan has there, in
order and each item once, and then nothing for ever; it has read as many lines as it has yielded
items (`PositionalReader.yields_ofLines`). What it yields depends on no other line, so the other
lines of the file might as well hold anything (`SpillArea.scanPositions_spec`).
-/

namespace RecordFlow

/-! ### Elements at some positions -/

theorem zipIdx_zipIdx {α : Type} (as : List α) (start : Nat) :
    (as.zipIdx start).zipIdx start = (as.zipIdx start).map fun entry => (entry, entry.2) := by
  induction as generalizing start with
  | nil => rfl
  | cons a as ih => rw [List.zipIdx_cons, List.zipIdx_cons, ih, List.map_cons]

theorem atPositions_zipIdx {α : Type} (as : List α) (positions : List Nat) :
    atPositions as.zipIdx positions =
      as.zipIdx.filter fun entry => positions.contains entry.2 := by
  rw [atPositions, zipIdx_zipIdx, List.filter_map, List.map_map]
  exact List.map_id _

/-- The elements at some positions do not depend on the others. -/
theorem atPositions_congr {α : Type} {as bs : List α} {positions : List Nat}
    (h : ∀ p ∈ positions, as[p]? = bs[p]?) :
    atPositions as positions = atPositions bs positions := by
  have hascending := pairwise_sorted_eraseDups positions
  rw [← atPositions_sorted_eraseDups as, ← atPositions_sorted_eraseDups bs,
    ← filterMap_getElem?_ascending as hascending, ← filterMap_getElem?_ascending bs hascending]
  exact List.filterMap_congr fun p hp => h p (mem_sorted_eraseDups.1 hp)

/-- In range there is one element for every position. -/
theorem length_atPositions {α : Type} {as : List α} {positions : List Nat}
    (h : ∀ p ∈ positions, p < as.length) :
    (atPositions as positions).length = positions.eraseDups.length := by
  have hfound : ∀ p ∈ positions.mergeSort.eraseDups, (as[p]?).isSome := fun p hp =>
    by simpa using h p (mem_sorted_eraseDups.1 hp)
  rw [← atPositions_sorted_eraseDups,
    ← filterMap_getElem?_ascending as (pairwise_sorted_eraseDups positions),
    List.length_filterMap_eq_countP, List.countP_eq_length.2 hfound]
  exact length_eraseDups (nodup_eraseDups _) fun p => mem_sorted_eraseDups

theorem getElem?_scanLines (lines : List (List Char)) (p : Nat) :
    (scanLines lines)[p]? = lines[p]?.map (readSpilled · p) := by
  rw [scanLines, List.getElem?_map, List.getElem?_zipIdx, Option.map_map, Nat.zero_add]
  rfl

theorem length_scanLines (lines : List (List Char)) : (scanLines lines).length = lines.length := by
  rw [scanLines, List.length_map, List.length_zipIdx]

/-! ### Readers -/

namespace PositionalReader

/-- The reader behind some attempts to read an item. -/
def after (r : PositionalReader) : Nat → PositionalReader
  | 0 => r
  | n + 1 => r.next.2.after n

variable {r r' : PositionalReader}

theorem decoded_of_next_none (h : r.next = (none, r')) : r'.decoded = r.decoded := by
  unfold next at h
  split at h
  · cases h
    rfl
  split at h
  · cases h
    rfl
  · cases h

theorem decoded_of_next_some {item : Item} (h : r.next = (some item, r')) :
    r'.decoded = r.decoded + 1 := by
  unfold next at h
  split at h
  · cases h
  split at h
  · cases h
  · cases h
    rfl

/-- A reader that has nothing left stays as it is. -/
theorem after_of_next_none (h : r.next = (none, r')) (n : Nat) : r.after (n + 1) = r' := by
  induction n generalizing r with
  | zero => rw [after, h, after]
  | succ n ih => rw [after, h, ih (next_of_next_none h)]

/-- Each attempt yields the next item that is wanted and reads its line, as long as there is one. -/
theorem Sound.after (h : r.Sound) (n : Nat) :
    (r.after n).next.1 =
        (r.wanted.map fun (line, position) => readSpilled line position)[n]? ∧
      (r.after n).decoded = r.decoded + min n r.wanted.length := by
  induction n generalizing r with
  | zero =>
    rcases h.next with ⟨hwanted, r', hnext⟩ | ⟨line, position, r', hwanted, hnext, -⟩
    · simp [PositionalReader.after, hnext, hwanted]
    · simp [PositionalReader.after, hnext, hwanted]
  | succ n ih =>
    rcases h.next with ⟨hwanted, r', hnext⟩ | ⟨line, position, r', hwanted, hnext, hsound⟩
    · rw [after_of_next_none hnext, next_of_next_none hnext, decoded_of_next_none hnext, hwanted]
      simp
    · obtain ⟨hitem, hdecoded⟩ := ih hsound
      rw [PositionalReader.after, hnext, hitem, hdecoded, decoded_of_next_some hnext, hwanted]
      refine ⟨rfl, ?_⟩
      rw [List.length_cons]
      omega

/-- Asked again and again, the reader yields some items in order and then nothing for ever, and
after each attempt it has read as many lines as it has yielded items. -/
def Yields (r : PositionalReader) (items : List Item) : Prop :=
  ∀ n, (r.after n).next.1 = items[n]? ∧ (r.after n).decoded = min n items.length

/-- A new reader yields what a full scan has at the positions. -/
theorem yields_ofLines (lines : List (List Char)) (positions : List Nat) :
    (ofLines lines positions).Yields (atPositions (scanLines lines) positions) := by
  intro n
  obtain ⟨hitem, hdecoded⟩ := (sound_ofLines lines positions).after n
  rw [scanLines, atPositions_map, atPositions_zipIdx, List.length_map]
  exact ⟨hitem, hdecoded.trans (Nat.zero_add _)⟩

/-- The lines at other positions do not matter. -/
theorem yields_ofLines_congr {lines lines' : List (List Char)} {positions : List Nat}
    (h : ∀ p ∈ positions, lines[p]? = lines'[p]?) :
    (ofLines lines positions).Yields (atPositions (scanLines lines') positions) := by
  have hsame : atPositions (scanLines lines) positions =
      atPositions (scanLines lines') positions :=
    atPositions_congr fun p hp => by rw [getElem?_scanLines, getElem?_scanLines, h p hp]
  rw [← hsame]
  exact yields_ofLines lines positions

end PositionalReader

namespace SpillArea

/-- A position past the end is refused before the file is looked at. -/
theorem scanPositions_past (a : SpillArea) {store : SpillStore} {positions : List Nat}
    (h : ∃ p ∈ positions, store.count ≤ p) :
    ∃ p ∈ positions, a.scanPositions store positions =
      .error (.positionInStore p store.count) := by
  obtain ⟨p, hp, hle⟩ := h
  have hfind : (positions.find? (store.count ≤ ·)).isSome :=
    List.find?_isSome.2 ⟨p, hp, decide_eq_true hle⟩
  obtain ⟨first, hfirst⟩ := Option.isSome_iff_exists.1 hfind
  exact ⟨first, List.mem_of_find?_eq_some hfirst, by rw [scanPositions, hfirst]⟩

theorem scanPositions_within {a : SpillArea} {store : SpillStore} {positions : List Nat}
    {lines : List (List Char)} (hlines : a.lines store = .ok lines)
    (h : ∀ p ∈ positions, p < store.count) :
    a.scanPositions store positions = .ok (.ofLines lines positions) := by
  have hfind : positions.find? (store.count ≤ ·) = none :=
    List.find?_eq_none.2 fun p hp => by simpa using h p hp
  rw [scanPositions, hfind, hlines]
  rfl

/-- Another text in the file of a store changes its lines, unless the store has none. -/
theorem lines_overwrite {a : SpillArea} {store : SpillStore} (h : a.isDisposed store.id = false)
    (text : String) : (a.overwrite store.id text).lines store =
      .ok (if store.byteCount = 0 then [] else spillLines text.toList) := by
  have hopen : (a.overwrite store.id text).isDisposed store.id = false := h
  have hcontents : (a.overwrite store.id text).contents? store.id = some text :=
    List.lookup_cons_self
  rw [lines, hopen, if_neg Bool.false_ne_true, hcontents]
  split
  · rfl
  · rfl

/-- A store can be made of any records in any state of the area. While it can be opened, which it
can at first, it is scanned as so many items as it has records. A scan of some of its positions, in
any order and with repeats, is refused as an invalid argument if a position is past the end.
Otherwise its reader yields the items of the full scan at the positions, in order and each once, and
then nothing for ever, and reads no line but theirs: it yields the same from every file with the
same lines at the positions. -/
theorem scanPositions_spec {a : SpillArea} (ha : Reaches {} a) (config : SpillConfig)
    (records : List Record) :
    ∃ store b, a.createFrom config (records.map .ok) = (.ok store, b) ∧
      b.isDisposed store.id = false ∧
      ∀ c, b.Reaches c → c.isDisposed store.id = false →
        ∃ items, c.scan store = .ok items ∧ items.length = store.count ∧ ∀ positions : List Nat,
          ((∃ p ∈ positions, store.count ≤ p) →
            ∃ fault, c.scanPositions store positions = .error fault ∧
              fault.kind = .invalidArgument) ∧
          ((∀ p ∈ positions, p < store.count) →
            (atPositions items positions).length = positions.eraseDups.length ∧
            (∃ reader, c.scanPositions store positions = .ok reader ∧
              reader.Yields (atPositions items positions)) ∧
            ∀ text : String, (∀ p ∈ positions,
                (spillLines text.toList)[p]? = records[p]?.map (·.line.toList)) →
              ∃ reader, (c.overwrite store.id text).scanPositions store positions = .ok reader ∧
                reader.Yields (atPositions items positions)) := by
  have hholds := holds_fileText_create (numbered_empty.reaches ha) config records
  have hcreate := create_eq a config records
  refine ⟨_, _, createFrom_map_ok a config records, hholds.isDisposed, fun c hbc hopen => ?_⟩
  have hsize : (a.create config records).1.byteCount = (fileText records).utf8ByteSize := by
    rw [hcreate]
  have hcount : (a.create config records).1.count = records.length := by rw [hcreate]
  have hlines := (hholds.reaches hbc hopen).lines hsize
  have hlength : (scanLines (records.map (·.line.toList))).length = records.length := by
    rw [length_scanLines, List.length_map]
  refine ⟨_, by rw [scan, hlines, Except.map], by rw [hlength, hcount], fun positions =>
    ⟨fun hpast => ?_, fun hwithin => ⟨?_, ?_, fun text htext => ?_⟩⟩⟩
  · obtain ⟨p, -, hfault⟩ := c.scanPositions_past hpast
    exact ⟨_, hfault, rfl⟩
  · exact length_atPositions (by rwa [hlength, ← hcount])
  · exact ⟨_, scanPositions_within hlines hwithin, PositionalReader.yields_ofLines _ _⟩
  have hsame : ∀ p ∈ positions,
      (if (a.create config records).1.byteCount = 0 then [] else spillLines text.toList)[p]? =
        (records.map (·.line.toList))[p]? := by
    intro p hp
    rw [hsize, List.getElem?_map]
    split
    · next hzero =>
      rw [(fileText_eq_empty_iff records).1 hzero]
      rfl
    · exact htext p hp
  exact ⟨_, scanPositions_within (lines_overwrite hopen text) hwithin,
    PositionalReader.yields_ofLines_congr hsame⟩

/-- The first record nests too deep to be read and the last one is empty; they are asked for in the
wrong order and one of them twice. -/
theorem scanPositions_spec_deepRecords :
    ∃ store b reader, createFrom {} .default ([deepRecord 64, deepRecord 1, []].map .ok) =
        (.ok store, b) ∧
      b.scanPositions store [2, 0, 2] = .ok reader ∧
      reader.Yields [.error (.undecodableRecord 0), .ok []] ∧
      ∃ fault, b.scanPositions store [1, 3] = .error fault ∧ fault.kind = .invalidArgument := by
  let records : List ProperRecord := [properDeepRecord 64, properDeepRecord 1, ⟨[], by decide⟩]
  obtain ⟨store, b, hcreate, hopen, hlater⟩ :=
    scanPositions_spec .refl .default [deepRecord 64, deepRecord 1, []]
  obtain ⟨items, hscan, -, hpositions⟩ := hlater b .refl hopen
  have hmade := hcreate
  rw [createFrom_map_ok] at hmade
  obtain ⟨hstore, rfl⟩ := Prod.mk.inj hmade
  obtain rfl := Except.ok.inj hstore
  have hholds := holds_fileText_create numbered_empty .default [deepRecord 64, deepRecord 1, []]
  rw [hholds.scan_eq records (byteCount_create _ _ _)] at hscan
  have hempty : Record.levels [] = 1 := rfl
  have hitems : atPositions items [2, 0, 2] = [.error (.undecodableRecord 0), .ok []] := by
    rw [← Except.ok.inj hscan]
    simp [records, properDeepRecord, atPositions, Record.scanned, levels_deepRecord, hempty,
      Json.maxDepth, Record.reread, Value.rereadFields]
  have hcount : (create {} .default [deepRecord 64, deepRecord 1, []]).1.count = 3 := by
    rw [create_eq]
    rfl
  obtain ⟨-, ⟨reader, hreader, hyields⟩, -⟩ :=
    (hpositions [2, 0, 2]).2 (by rw [hcount]; decide)
  rw [hitems] at hyields
  exact ⟨_, _, reader, hcreate, hreader, hyields, (hpositions [1, 3]).1 (by rw [hcount]; decide)⟩

end SpillArea

end RecordFlow
