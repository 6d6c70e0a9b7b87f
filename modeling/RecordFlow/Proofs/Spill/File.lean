import RecordFlow.Proofs.Value.StoredRoundTrip
import RecordFlow.Spill.Reader
import RecordFlow.Spill.Writer

/-!
# Spill files, written and read

`fileText` is what a spill file of some records is to hold: their lines in order, each with a line
break behind it. The writer produces this text whatever its buffer (`contents_writeAll`), and since
no line holds a line break, the reader finds the lines again (`spillLines_fileText`) and in them the
records (`scanLines_map_line`).
-/

namespace RecordFlow

/-- The lines of some records, each with a line break behind it. -/
def fileText (records : List Record) : String :=
  String.join (records.map fun r => r.line ++ "\n")

@[simp] theorem fileText_nil : fileText [] = "" := rfl

theorem fileText_append (rs rs' : List Record) :
    fileText (rs ++ rs') = fileText rs ++ fileText rs' := by
  simp [fileText]

theorem fileText_singleton (r : Record) : fileText [r] = r.line ++ "\n" := by
  simp [fileText]

/-! ### Writing -/

namespace SpillWriter

/-- The writer has taken some records: what it has written and what it has gathered make up their
lines, and its two counts are right. -/
structure HasTaken (w : SpillWriter) (records : List Record) : Prop where
  text : w.contents ++ w.batch = fileText records
  count : w.count = records.length
  byteCount : w.byteCount = w.contents.utf8ByteSize

theorem hasTaken_nil : HasTaken {} [] :=
  ⟨rfl, rfl, rfl⟩

theorem HasTaken.flush {w : SpillWriter} {rs : List Record} (h : w.HasTaken rs) :
    w.flush.HasTaken rs where
  text := by simp [SpillWriter.flush, h.text]
  count := h.count
  byteCount := by simp [SpillWriter.flush, h.byteCount]

theorem HasTaken.write {w : SpillWriter} {rs : List Record} (h : w.HasTaken rs) (bufferSize : Nat)
    (r : Record) : (w.write bufferSize r).HasTaken (rs ++ [r]) := by
  have htext : w.contents ++ (w.batch ++ r.line ++ "\n") = fileText (rs ++ [r]) := by
    rw [fileText_append, fileText_singleton, ← h.text]
    simp [String.append_assoc]
  have hgathered : HasTaken { w with batch := w.batch ++ r.line ++ "\n", count := w.count + 1 }
      (rs ++ [r]) :=
    { text := htext, count := by simp [h.count], byteCount := h.byteCount }
  unfold SpillWriter.write
  dsimp only
  split
  · exact hgathered.flush
  · exact hgathered

theorem hasTaken_foldl_write (bufferSize : Nat) (rs : List Record) :
    ∀ (w : SpillWriter) (taken : List Record), w.HasTaken taken →
      (rs.foldl (SpillWriter.write bufferSize) w).HasTaken (taken ++ rs) := by
  induction rs with
  | nil =>
    intro w taken h
    simpa using h
  | cons r rs ih =>
    intro w taken h
    simpa using ih _ _ (h.write bufferSize r)

theorem hasTaken_writeAll (bufferSize : Nat) (rs : List Record) :
    (writeAll bufferSize rs).HasTaken rs :=
  (hasTaken_foldl_write bufferSize rs {} [] hasTaken_nil).flush

/-- A file holds the lines of its records, whatever the size of the buffer. -/
theorem contents_writeAll (bufferSize : Nat) (rs : List Record) :
    (writeAll bufferSize rs).contents = fileText rs := by
  simpa [writeAll, flush] using (hasTaken_writeAll bufferSize rs).text

theorem count_writeAll (bufferSize : Nat) (rs : List Record) :
    (writeAll bufferSize rs).count = rs.length :=
  (hasTaken_writeAll bufferSize rs).count

theorem byteCount_writeAll (bufferSize : Nat) (rs : List Record) :
    (writeAll bufferSize rs).byteCount = (fileText rs).utf8ByteSize := by
  rw [(hasTaken_writeAll bufferSize rs).byteCount, contents_writeAll]

end SpillWriter

/-! ### Reading -/

theorem spillLines_append {line : List Char} (h : '\n' ∉ line) (rest : List Char) :
    spillLines (line ++ '\n' :: rest) = line :: spillLines rest := by
  induction line with
  | nil => rfl
  | cons c line ih =>
    have hc : c ≠ '\n' ∧ '\n' ∉ line := by simpa [eq_comm] using h
    simp [spillLines, hc.1, ih hc.2]

theorem toList_fileText_cons (r : Record) (rs : List Record) :
    (fileText (r :: rs)).toList = r.line.toList ++ '\n' :: (fileText rs).toList := by
  have hcons : fileText (r :: rs) = fileText [r] ++ fileText rs := fileText_append [r] rs
  rw [hcons, fileText_singleton]
  simp

theorem spillLines_fileText (rs : List Record) :
    spillLines (fileText rs).toList = rs.map (·.line.toList) := by
  induction rs with
  | nil => rfl
  | cons r rs ih =>
    rw [toList_fileText_cons, spillLines_append r.newline_not_mem_line, ih, List.map_cons]

theorem readSpilled_line {r s : Record} (h : Record.ofLine? r.line.toList = some s) (n : Nat) :
    readSpilled r.line.toList n = .ok s := by
  rw [readSpilled, h]

/-- The lines of some records are read as what each of them is read as. -/
theorem scanLines_map_line {rs : List Record} {f : Record → Record}
    (h : ∀ r ∈ rs, Record.ofLine? r.line.toList = some (f r)) :
    scanLines (rs.map (·.line.toList)) = rs.map fun r => .ok (f r) := by
  have hfrom : ∀ n, ((rs.map (·.line.toList)).zipIdx n).map
      (fun p => readSpilled p.1 p.2) = rs.map fun r => .ok (f r) := by
    induction rs with
    | nil => intro n; rfl
    | cons r rs ih =>
      intro n
      have hr := h r List.mem_cons_self
      have hrs := ih fun s hs => h s (List.mem_cons_of_mem r hs)
      simp only [List.map_cons, List.zipIdx_cons, hrs, readSpilled_line hr]
  exact hfrom 0

theorem fileText_eq_empty_iff (rs : List Record) : (fileText rs).utf8ByteSize = 0 ↔ rs = [] := by
  cases rs with
  | nil => simp
  | cons r rs =>
    rw [String.utf8ByteSize_eq_zero_iff, ← String.toList_eq_nil_iff, toList_fileText_cons]
    simp

end RecordFlow
