import RecordFlow.Binary64.Rounding
import RecordFlow.Value.Basic

/-!
# Grouping keys

`Value.key` maps a value to bytes whose lexicographic order is a total order of all values. Values
that are equal as numbers have one key: a number is written as the nearest binary64 number followed
by the exact difference from it. Texts end in a pair of zero bytes, and zero bytes inside them are
escaped. The key of an empty structured value begins others, but what follows a key is never a zero
byte.
-/

namespace RecordFlow

/-- The `width` lowest bytes of a number, the lowest one first. -/
def littleEndian : Nat → Nat → List UInt8
  | 0, _ => []
  | width + 1, n => UInt8.ofNat n :: littleEndian width (n / 256)

/-- The `width` lowest bytes of a number, the lowest one last. -/
def bigEndian (width n : Nat) : List UInt8 :=
  (littleEndian width n).reverse

def utf8Bytes (s : String) : List UInt8 :=
  s.toUTF8.data.toList

/-- The order of byte strings, byte by byte; a string comes before its extensions. -/
def compareBytes : List UInt8 → List UInt8 → Ordering
  | [], [] => .eq
  | [], _ :: _ => .lt
  | _ :: _, [] => .gt
  | a :: as, b :: bs => (compare a b).then (compareBytes as bs)

namespace Value

/-- A signed number of 64 bits as an unsigned one of the same order. -/
def biased (n : Int) : Nat :=
  ((n + 2 ^ 63) % 2 ^ 64).toNat

/-- The bits of a number rearranged so that their order is the order of numbers. -/
def orderedBits (x : Binary64) : Nat :=
  if x.negative then 2 ^ 64 - 1 - x.bits.toNat else x.bits.toNat + 2 ^ 63

/-- The key of the number `x + residual`; both zeros share one. -/
def numberKey (x : Binary64) (residual : Int) : List UInt8 :=
  0x10 :: (bigEndian 8 (orderedBits (if x.isZero then .zero else x)) ++
    bigEndian 8 (biased residual))

/-- The key of an integer: the nearest number and the difference from it. -/
def intKey (n : Int64) : List UInt8 :=
  let nearest := Binary64.ofInt n.toInt
  numberKey nearest (n.toInt - nearest.truncate)

/-- The key of a floating-point number; all NaN share one. -/
def floatKey (x : Binary64) : List UInt8 :=
  if x.isNaN then [0x19] else numberKey x 0

/-- The bytes of a text with zero bytes and high bytes escaped, and an end mark. -/
def escapedBytes : List UInt8 → List UInt8
  | [] => [0x00, 0x00]
  | b :: rest =>
    if b = 0x00 then 0x00 :: 0xFF :: escapedBytes rest
    else if b = 0xFF then 0xFF :: 0x00 :: escapedBytes rest
    else b :: escapedBytes rest

mutual

def key : Value → List UInt8
  | .null => [0x01]
  | .bool false => [0x02]
  | .bool true => [0x03]
  | .int n => intKey n
  | .float x => floatKey x
  | .text s => 0x20 :: escapedBytes (utf8Bytes s)
  | .timestamp t =>
    0x32 :: (bigEndian 8 (biased t.epochSeconds) ++ bigEndian 4 t.time.nanosecond)
  | .list elements => 0x60 :: elementsKey elements
  | .struct fields => 0x64 :: fieldsKey fields

/-- The keys of elements, each followed by a mark, and an end mark. -/
def elementsKey : List Value → List UInt8
  | [] => [0x00]
  | v :: rest => key v ++ 0x01 :: elementsKey rest

/-- The names and keys of fields, each followed by a mark, and an end mark. -/
def fieldsKey : List (String × Value) → List UInt8
  | [] => [0x00]
  | (name, v) :: rest => escapedBytes (utf8Bytes name) ++ (key v ++ 0x01 :: fieldsKey rest)

end

end Value

end RecordFlow
