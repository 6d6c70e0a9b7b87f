import RecordFlow.Stream.Item
import RecordFlow.Value.Stored

/-!
# Reading a spill file

The lines of a spill file are read independently of one another: a line that is no record is a
failure in its place. A `PositionalReader` passes over lines that nobody asked for without reading
them and stops behind the last one wanted.
-/

namespace RecordFlow

/-- The lines of a text; behind the last line break there is one only if it is not empty. -/
def spillLines : List Char → List (List Char)
  | [] => []
  | '\n' :: rest => [] :: spillLines rest
  | c :: rest =>
    match spillLines rest with
    | [] => [[c]]
    | line :: lines => (c :: line) :: lines

/-- The record of the line with a number. -/
def readSpilled (line : List Char) (position : Nat) : Item :=
  match Record.ofLine? line with
  | some r => .ok r
  | none => .error (.undecodableRecord position)

def scanLines (lines : List (List Char)) : List Item :=
  lines.zipIdx.map fun (line, position) => readSpilled line position

/-- A reader of the lines at some positions. -/
structure PositionalReader where
  /-- The lines ahead, with their positions. -/
  ahead : List (List Char × Nat)
  targets : List Nat
  /-- Nothing more will be read. -/
  done : Bool
  /-- The number of lines read so far. -/
  decoded : Nat

namespace PositionalReader

/-- The reader of some positions, at the start of the lines. -/
def ofLines (lines : List (List Char)) (targets : List Nat) : PositionalReader :=
  ⟨lines.zipIdx, targets, targets.isEmpty, 0⟩

/-- The last position wanted. -/
def last (r : PositionalReader) : Nat :=
  r.targets.max?.getD 0

def next (r : PositionalReader) : Option Item × PositionalReader :=
  if r.done then (none, r)
  else
    match r.ahead.dropWhile fun (_, position) => !r.targets.contains position with
    | [] => (none, { r with ahead := [], done := true })
    | (line, position) :: rest =>
      (some (readSpilled line position),
        { r with ahead := rest, done := r.last ≤ position, decoded := r.decoded + 1 })

/-- At most `fuel` items, and the reader behind them. -/
def nextItems (r : PositionalReader) : Nat → List Item × PositionalReader
  | 0 => ([], r)
  | fuel + 1 =>
    match r.next with
    | (none, r) => ([], r)
    | (some item, r) =>
      let (items, r) := nextItems r fuel
      (item :: items, r)

/-- All items that are left, and the reader at its end. Every item takes a line, so there are at
most as many as lines. -/
def rest (r : PositionalReader) : List Item × PositionalReader :=
  nextItems r (r.ahead.length + 1)

end PositionalReader

end RecordFlow
