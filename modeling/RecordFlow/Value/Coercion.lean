import RecordFlow.Text.Blank
import RecordFlow.Text.Number
import RecordFlow.Timestamp.Text
import RecordFlow.Value.Basic

/-!
# Coercion

A value that is to stand in a column of some type either fits it, is text that denotes a value of
that type, or does not go in. Coercing a second time changes nothing.
-/

namespace RecordFlow

/-- The number that a text denotes. Words without a sign denote none. -/
def numberOfText? (cs : List Char) : Option Value :=
  if Text.beginsLikeNumber cs then
    match Text.readInt64? cs with
    | some n => some (.int n)
    | none => (Text.readBinary64? cs).map .float
  else none

/-- Equality of texts when ASCII letters are taken in lower case. -/
def equalIgnoringCase (s : String) (word : List Char) : Bool :=
  s.toList.map Char.toLower == word

def boolOfText? (s : String) : Option Value :=
  if equalIgnoringCase s ['t', 'r', 'u', 'e'] then some (.bool true)
  else if equalIgnoringCase s ['f', 'a', 'l', 's', 'e'] then some (.bool false)
  else none

/-- The value as it stands in a column of a type, if it fits. NULL fits every type, and the type
`other` takes every value. -/
def Value.coerce (v : Value) (target : LogicalType) : Option Value :=
  match target, v with
  | _, .null => some .null
  | .other, v => some v
  | .numeric, .int n => some (.int n)
  | .numeric, .float x => some (.float x)
  | .numeric, .text s => numberOfText? (Text.trim s.toList)
  | .string, .text s => some (.text s)
  | .boolean, .bool b => some (.bool b)
  | .boolean, .text s => boolOfText? s
  | .timestamp, .timestamp t => some (.timestamp t)
  | .timestamp, .text s => (Timestamp.parseIso? s).map .timestamp
  | .list, .list elements => some (.list elements)
  | _, _ => none

end RecordFlow
