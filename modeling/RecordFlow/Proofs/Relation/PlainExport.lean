import RecordFlow.Proofs.Relation.LineRoundTrip
import RecordFlow.Proofs.Value.PlainRoundTrip
import RecordFlow.Relation.Text

/-!
# The plain export is read back

There is no line break in a JSON text, and in UTF-8 no other character has its byte
(`eq_newline_of_mem_utf8EncodeChar`), so the bytes of the export fall into the texts of the records
again (`Relation.splitOn_plainJsonLines`). Each of them is read as its record where that has only
values that JSON has (`Relation.plainJsonLines_spec`).
-/

namespace RecordFlow

/-! ### Lines as bytes -/

/-- Of all characters only the line break has its byte in UTF-8. -/
theorem eq_newline_of_mem_utf8EncodeChar {c : Char} (h : 0x0A ∈ String.utf8EncodeChar c) :
    c = '\n' := by
  have hbyte : ∀ {n : Nat}, n < 256 → (0x0A : UInt8) = UInt8.ofNat n → n = 10 := by
    intro n hn hbyte
    have hnat := congrArg UInt8.toNat hbyte
    rw [UInt8.toNat_ofNat', Nat.mod_eq_of_lt hn] at hnat
    exact hnat.symm
  revert h
  fun_cases String.utf8EncodeChar c <;> intro h <;>
    simp only [List.mem_cons, List.not_mem_nil, or_false] at h
  · exact Char.ext (UInt32.toNat_inj.1 (hbyte (by omega) h))
  -- every byte of a longer character is too great
  · rcases h with h | h <;> have hn := hbyte (by omega) h <;> omega
  · rcases h with h | h | h <;> have hn := hbyte (by omega) h <;> omega
  · rcases h with h | h | h | h <;> have hn := hbyte (by omega) h <;> omega

theorem newline_not_mem_utf8Bytes {s : String} (h : '\n' ∉ s.toList) : 0x0A ∉ utf8Bytes s := by
  rw [utf8Bytes_eq_flatMap, List.mem_flatMap]
  rintro ⟨c, hc, hbyte⟩
  rw [eq_newline_of_mem_utf8EncodeChar hbyte] at hc
  exact h hc

theorem utf8Bytes_append (s t : String) : utf8Bytes (s ++ t) = utf8Bytes s ++ utf8Bytes t := by
  simp only [utf8Bytes_eq_flatMap, String.toList_append, List.flatMap_append]

theorem utf8Bytes_intercalate (s : String) (ts : List String) :
    utf8Bytes (s.intercalate ts) = (utf8Bytes s).intercalate (ts.map utf8Bytes) := by
  induction ts with
  | nil => rfl
  | cons t ts ih =>
    cases ts with
    | nil => rw [String.intercalate_singleton, List.map_singleton, List.intercalate_singleton]
    | cons u us =>
      rw [String.intercalate_cons_cons, utf8Bytes_append, utf8Bytes_append, ih]
      simp only [List.map_cons, List.intercalate_cons_cons]

/-- Lines come back from the bytes that they are joined to. -/
theorem splitOn_utf8Bytes_intercalate {lines : List String} (hne : lines ≠ [])
    (hlines : ∀ line ∈ lines, '\n' ∉ line.toList) :
    (utf8Bytes ("\n".intercalate lines)).splitOn 0x0A = lines.map utf8Bytes := by
  have hnewline : utf8Bytes "\n" = [0x0A] := by rfl
  rw [utf8Bytes_intercalate, hnewline]
  refine List.splitOn_intercalate 0x0A ?_ (by simpa using hne)
  simp only [List.forall_mem_map]
  exact fun line hline => newline_not_mem_utf8Bytes (hlines line hline)

/-! ### The export -/

namespace Relation

variable {r : Relation}

/-- The lines of the export are the texts of the records. -/
theorem splitOn_plainJsonLines (hne : r.rows ≠ []) :
    (utf8Bytes r.plainJsonLines).splitOn 0x0A =
      (r.records.map fun record => record.toJson.text).map utf8Bytes := by
  refine splitOn_utf8Bytes_intercalate ?_ ?_
  · simpa [records] using hne
  · simp only [List.forall_mem_map, Json.text, String.toList_ofList]
    exact fun record _ => Json.newline_not_mem_chars record.toJson

/-- Where the rows have neither floating-point numbers nor timestamps, the export of some rows has
a line for each of them. A line that nests no deeper than the reader of JSON goes is read as the
record of its row, and the others are refused. -/
theorem plainJsonLines_spec (r : ProperRelation) (hne : r.rows ≠ [])
    (hplain : ∀ row ∈ r.rows, ∀ v ∈ row, v.isPlain) :
    ∃ lines : List String,
      (utf8Bytes r.plainJsonLines).splitOn 0x0A = lines.map utf8Bytes ∧
      lines.length = r.rows.length ∧
      lines.map (fun line => (Json.read? line.toList).bind Record.ofJson?) =
        r.records.map fun record =>
          if record.toJson.depth ≤ Json.maxDepth then some record else none := by
  refine ⟨r.records.map fun record => record.toJson.text, splitOn_plainJsonLines hne, ?_, ?_⟩
  · rw [List.length_map, records, List.length_map]
  rw [List.map_map]
  refine List.map_congr_left fun record hrecord => ?_
  obtain ⟨row, hrow, rfl⟩ := List.mem_map.1 hrecord
  have hsame : (r.recordOf row).plain = r.recordOf row :=
    Record.plain_of_forall fun field hfield => hplain row hrow _ (List.of_mem_zip hfield).2
  have hread := Record.ofJson?_toJson_text (wellFormed_recordOf r.shaped hrow (r.proper row hrow))
  rwa [hsame] at hread

/-- Two records with line breaks, quotes and controls in names and texts, and values in values. -/
def quotedRecords : List Record :=
  [[("z\n\"", .text "x\ny\\\x01"),
      ("a.b", .list [.int (-1), .struct [("b", .null), ("", .bool true)]])],
    [("z\n\"", .null), ("a.b", .list [])]]

theorem plainJsonLines_spec_quotedRecords :
    ∃ lines : List String,
      (utf8Bytes (ofRecords quotedRecords).plainJsonLines).splitOn 0x0A = lines.map utf8Bytes ∧
      lines.length = 2 ∧
      lines.map (fun line => (Json.read? line.toList).bind Record.ofJson?) =
        quotedRecords.map some := by
  obtain ⟨lines, hsplit, hlength, hread⟩ := plainJsonLines_spec
    ⟨⟨ofRecords quotedRecords, by decide⟩, by decide⟩ (by decide) (by decide)
  exact ⟨lines, hsplit, hlength, hread.trans (by rfl)⟩

end Relation

end RecordFlow
