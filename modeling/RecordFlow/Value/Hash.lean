import RecordFlow.SipHash
import RecordFlow.Value.Key

/-!
# Content hashes

`Value.feed` and `Record.feed` write a value and a record as bytes that can be read back in only
one way; the hashes of this library are keyed SipHash of such bytes. A tuple has two hashes: its
content hash combines the hashes of its values without regard to their places, and its identity
hash takes the values in order.
-/

namespace RecordFlow

namespace Timestamp

/-- The weekday of the last day before a year, from one for Tuesday to seven for Monday. -/
def weekdayBefore (year : Int) : Nat :=
  let weekday := (Date.daysBeforeYear year % 7).toNat
  if weekday = 1 then 7 else (weekday + 6) % 7

/-- A date in one number: year, day of the year, and the kind of the year, which is the weekday
before it and whether it has a leap day. -/
def dateCode (d : Date) : Int :=
  let kind := (if isLeapYear d.year then 0 else 8) + weekdayBefore d.year
  d.year * 2 ^ 13 + d.dayOfYear * 2 ^ 4 + kind

def feed (t : Timestamp) : List UInt8 :=
  littleEndian 4 (dateCode t.date % 2 ^ 32).toNat ++ littleEndian 4 t.time.secondOfDay ++
    littleEndian 4 t.time.nanosecond

end Timestamp

/-- The bytes that stand for a text: no byte of UTF-8 is the end mark. -/
def textFeed (s : String) : List UInt8 :=
  utf8Bytes s ++ [0xFF]

namespace Value

mutual

/-- The bytes that stand for a value: a tag for its kind and its content. -/
def feed : Value → List UInt8
  | .null => [0]
  | .bool b => [1, if b then 1 else 0]
  | .int n => 2 :: littleEndian 8 n.toUInt64.toNat
  | .float x => 3 :: littleEndian 8 x.bits.toNat
  | .text s => 4 :: textFeed s
  | .timestamp t => 5 :: t.feed
  | .list elements => 6 :: (littleEndian 8 elements.length ++ elementsFeed elements)
  | .struct fields => 7 :: (littleEndian 8 fields.length ++ fieldsFeed fields)

def elementsFeed : List Value → List UInt8
  | [] => []
  | v :: rest => feed v ++ elementsFeed rest

/-- The bytes that stand for named values in order. -/
def fieldsFeed : List (String × Value) → List UInt8
  | [] => []
  | (name, v) :: rest => textFeed name ++ (feed v ++ fieldsFeed rest)

end

end Value

def Record.feed (r : Record) : List UInt8 :=
  littleEndian 8 r.length ++ Value.fieldsFeed r

/-- The hash of bytes under the key of this library. -/
def contentHashOf (bytes : List UInt8) : UInt64 :=
  SipHash.hash 0x6c6c6f7041656854 0x6e6f697373694d6f bytes

def contentHashSeed : UInt64 := 703115

def Value.contentHash (v : Value) : UInt64 :=
  contentHashOf v.feed

/-- The hash of a record, its names and their order included. -/
def Record.contentHash (r : Record) : UInt64 :=
  contentHashOf r.feed

abbrev Tuple := List Value

namespace Tuple

/-- The hashes of the values of a row, combined without regard to their places. -/
def contentHash (row : Tuple) : UInt64 :=
  row.foldl (fun hash v => hash ^^^ v.contentHash) contentHashSeed

def feed (row : Tuple) : List UInt8 :=
  littleEndian 8 row.length ++ Value.elementsFeed row

/-- The hash of a row, each value in its place. -/
def identityHash (row : Tuple) : UInt64 :=
  contentHashOf row.feed

end Tuple

end RecordFlow
