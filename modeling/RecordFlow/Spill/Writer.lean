import RecordFlow.Value.Stored

/-!
# Writing a spill file

A spill file holds one record a line. Lines are gathered in a batch, which goes to the file as soon
as it has the size of the write buffer, and at the end.
-/

namespace RecordFlow

/-- A spill file that is being written. -/
structure SpillWriter where
  /-- What the file holds. -/
  contents : String := ""
  /-- What has been gathered since. -/
  batch : String := ""
  /-- The number of records. -/
  count : Nat := 0
  /-- The number of bytes that the file holds. -/
  byteCount : Nat := 0

namespace SpillWriter

def flush (w : SpillWriter) : SpillWriter :=
  { w with
    contents := w.contents ++ w.batch
    batch := ""
    byteCount := w.byteCount + w.batch.utf8ByteSize }

def write (bufferSize : Nat) (w : SpillWriter) (r : Record) : SpillWriter :=
  let w := { w with batch := w.batch ++ r.line ++ "\n", count := w.count + 1 }
  if bufferSize ≤ w.batch.utf8ByteSize then w.flush else w

/-- A file with some records, completely written. -/
def writeAll (bufferSize : Nat) (records : List Record) : SpillWriter :=
  (records.foldl (write bufferSize) {}).flush

end SpillWriter

end RecordFlow
