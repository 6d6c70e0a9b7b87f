import RecordFlow.Json.Reader
import RecordFlow.Timestamp.Text
import RecordFlow.Value.Basic

/-!
# The stored form of values

Where records are kept outside memory, every value is JSON with its kind as a tag: `{"Int":5}`.
`Value.toStored` writes this form and `Value.ofStored?` reads it. JSON has no infinities and no
NaN, so these are texts.
-/

namespace RecordFlow

namespace Value

def floatToStored (x : Binary64) : Json :=
  if x.isFinite then .float x
  else if x.isNaN then .string "NaN"
  else if x.negative then .string "-inf"
  else .string "inf"

mutual

def toStored : Value → Json
  | .null => .string "Null"
  | .bool b => .object [("Bool", .bool b)]
  | .int n => .object [("Int", .int n.toInt)]
  | .float x => .object [("Float", floatToStored x)]
  | .text s => .object [("Text", .string s)]
  | .timestamp t => .object [("Timestamp", .string t.text)]
  | .list elements => .object [("List", .array (elementsToStored elements))]
  | .struct fields => .object [("Struct", .object (fieldsToStored fields))]

def elementsToStored : List Value → List Json
  | [] => []
  | v :: rest => toStored v :: elementsToStored rest

def fieldsToStored : List (String × Value) → List (String × Json)
  | [] => []
  | (name, v) :: rest => (name, toStored v) :: fieldsToStored rest

end

/-- The floating-point number of a stored form; an integer is rounded. -/
def floatOfStored? : Json → Option Binary64
  | .int n => some (Binary64.ofInt n)
  | .float x => some x
  | .string "NaN" => some (Binary64.nan false)
  | .string "inf" => some (Binary64.infinity false)
  | .string "-inf" => some (Binary64.infinity true)
  | _ => none

/-- The value of a tag whose content holds no other value. -/
def leafOfStored? (tag : String) (content : Json) : Option Value :=
  match tag, content with
  | "Null", .null => some .null
  | "Bool", .bool b => some (.bool b)
  | "Int", .int n => if -2 ^ 63 ≤ n && n < 2 ^ 63 then some (.int (Int64.ofInt n)) else none
  | "Float", j => (floatOfStored? j).map .float
  | "Text", .string s => some (.text s)
  | "Timestamp", .string s => (Timestamp.readStored s.toList).map .timestamp
  | _, _ => none

mutual

/-- The value of a stored form. There must be exactly one tag, and it must fit its content. -/
def ofStored? : Json → Option Value
  | .string "Null" => some .null
  | .object [(tag, .array elements)] =>
    if tag = "List" then (elementsOfStored? elements).map .list else none
  | .object [(tag, .object members)] =>
    if tag = "Struct" then
      (fieldsOfStored? members).map fun fields => .struct (Attributes.ofPairs fields)
    else none
  | .object [(tag, content)] => leafOfStored? tag content
  | _ => none

def elementsOfStored? : List Json → Option (List Value)
  | [] => some []
  | j :: rest => do
    let v ← ofStored? j
    return v :: (← elementsOfStored? rest)

/-- The named values of stored forms in order, repeated names included. -/
def fieldsOfStored? : List (String × Json) → Option (List (String × Value))
  | [] => some []
  | (name, j) :: rest => do
    let v ← ofStored? j
    return (name, v) :: (← fieldsOfStored? rest)

end

end Value

namespace Record

def toStored (r : Record) : Json :=
  .object (Value.fieldsToStored r)

def ofStored? : Json → Option Record
  | .object members => (Value.fieldsOfStored? members).map Attributes.ofPairs
  | _ => none

def line (r : Record) : String :=
  r.toStored.text

def ofLine? (line : List Char) : Option Record :=
  (Json.read? line).bind ofStored?

end Record

end RecordFlow
