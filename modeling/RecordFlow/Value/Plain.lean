import RecordFlow.Json.Reader
import RecordFlow.Timestamp.Text
import RecordFlow.Value.Basic

/-!
# The plain JSON view of values

`Value.toJson` shows a value as ordinary JSON: timestamps become texts, and numbers that JSON does
not have become null. `Value.ofJson` reads ordinary JSON; integers beyond 64 bits with a sign
become floating-point numbers.
-/

namespace RecordFlow

namespace Value

mutual

def toJson : Value → Json
  | .null => .null
  | .bool b => .bool b
  | .int n => .int n.toInt
  | .float x => if x.isFinite then .float x else .null
  | .text s => .string s
  | .timestamp t => .string t.text
  | .list elements => .array (elementsToJson elements)
  | .struct fields => .object (fieldsToJson fields)

def elementsToJson : List Value → List Json
  | [] => []
  | v :: rest => toJson v :: elementsToJson rest

def fieldsToJson : List (String × Value) → List (String × Json)
  | [] => []
  | (name, v) :: rest => (name, toJson v) :: fieldsToJson rest

end

def ofInteger (n : Int) : Value :=
  if -2 ^ 63 ≤ n && n < 2 ^ 63 then .int (Int64.ofInt n) else .float (Binary64.ofInt n)

mutual

/-- The value that ordinary JSON stands for; of a repeated member the last value counts. -/
def ofJson : Json → Value
  | .null => .null
  | .bool b => .bool b
  | .int n => ofInteger n
  | .float x => .float x
  | .string s => .text s
  | .array elements => .list (elementsOfJson elements)
  | .object members => .struct (Attributes.ofPairs (fieldsOfJson members))

def elementsOfJson : List Json → List Value
  | [] => []
  | j :: rest => ofJson j :: elementsOfJson rest

/-- The named values that object members stand for. -/
def fieldsOfJson : List (String × Json) → List (String × Value)
  | [] => []
  | (name, j) :: rest => (name, ofJson j) :: fieldsOfJson rest

end

def ofJsonText? (s : String) : Option Value :=
  (Json.read? s.toList).map ofJson

end Value

namespace Record

def toJson (r : Record) : Json :=
  .object (Value.fieldsToJson r)

def ofJson? : Json → Option Record
  | .object members => some (Attributes.ofPairs (Value.fieldsOfJson members))
  | _ => none

end Record

end RecordFlow
