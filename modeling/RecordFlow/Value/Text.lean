import RecordFlow.Text.Visible
import RecordFlow.Value.Plain

/-!
# Values as text

`Value.display` shows a value to a person: texts stand as they are and records are JSON.
`Value.debugText` names the kind of every value and quotes texts, so that different values look
different.
-/

namespace RecordFlow

/-- Numbers are written with an exponent below `1e-4` and from `1e16` up. -/
def numberLayout : Binary64.DecimalLayout where
  positional := fun leading => -4 ≤ leading && leading < 16
  wholeMark := true
  exponentPlus := []
  tie := .up

/-- Numbers are written without an exponent and without a point that nothing follows. -/
def plainNumberLayout : Binary64.DecimalLayout where
  positional := fun _ => true
  wholeMark := false
  exponentPlus := []
  tie := .up

def Binary64.display (x : Binary64) : String :=
  String.ofList (x.text numberLayout)

/-- A text between quotes, with escapes. -/
def quotedText (s : String) : String :=
  String.ofList (Text.quoted s.toList)

namespace Value

mutual

def display : Value → String
  | .null => "null"
  | .bool b => toString b
  | .int n => toString n.toInt
  | .float x => x.display
  | .text s => s
  | .timestamp t => t.text
  | .list elements => "[" ++ ", ".intercalate (elementDisplays elements) ++ "]"
  | .struct fields => (toJson (.struct fields)).text

def elementDisplays : List Value → List String
  | [] => []
  | v :: rest => display v :: elementDisplays rest

end

mutual

def debugText : Value → String
  | .null => "Null"
  | .bool b => "Bool(" ++ toString b ++ ")"
  | .int n => "Int(" ++ toString n.toInt ++ ")"
  | .float x => "Float(" ++ x.display ++ ")"
  | .text s => "Text(" ++ quotedText s ++ ")"
  | .timestamp t => "Timestamp(" ++ t.text ++ ")"
  | .list elements => "List([" ++ ", ".intercalate (elementDebugTexts elements) ++ "])"
  | .struct fields =>
    "Struct(Record(\x7b" ++ ", ".intercalate (fieldDebugTexts fields) ++ "\x7d))"

def elementDebugTexts : List Value → List String
  | [] => []
  | v :: rest => debugText v :: elementDebugTexts rest

def fieldDebugTexts : List (String × Value) → List String
  | [] => []
  | (name, v) :: rest => (quotedText name ++ ": " ++ debugText v) :: fieldDebugTexts rest

end

end Value

end RecordFlow
