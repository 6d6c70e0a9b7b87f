import RecordFlow.Relation.Exchange
import RecordFlow.Relation.Grouping
import RecordFlow.Value.Plain
import RecordFlow.Value.Text

/-!
# Relations as text

`Relation.display` names the attributes with their types, and the debug texts show everything that
is known about schemas. `Relation.plainJsonLines` is the export of records as ordinary JSON.
-/

namespace RecordFlow

def LogicalType.debugText : LogicalType → String
  | .string => "String"
  | .numeric => "Numeric"
  | .boolean => "Boolean"
  | .timestamp => "Timestamp"
  | .list => "List"
  | .null => "Null"
  | .other => "Other"

def optionDebugText {α : Type} (text : α → String) : Option α → String
  | none => "None"
  | some a => "Some(" ++ text a ++ ")"

def textsDebugText (texts : List String) : String :=
  "[" ++ ", ".intercalate (texts.map quotedText) ++ "]"

def AttributeDomain.debugText (d : AttributeDomain) : String :=
  "AttributeDomain \x7b kind: " ++ d.kind.debugText ++
    ", min: " ++ optionDebugText Value.debugText d.min ++
    ", max: " ++ optionDebugText Value.debugText d.max ++
    ", count: " ++ optionDebugText toString d.count ++
    ", unique: " ++ optionDebugText toString d.unique ++
    ", nullable: " ++ optionDebugText toString d.nullable ++ " \x7d"

def Schema.debugText (s : Schema) : String :=
  "\x7b" ++
    ", ".intercalate (s.map fun (name, d) => quotedText name ++ ": " ++ d.debugText) ++ "\x7d"

namespace Relation

/-- The name of the relation and its attributes with their types. -/
def display (r : Relation) : String :=
  r.name.getD "relation" ++ " (" ++
    ", ".intercalate (r.schema.map fun (name, d) => name ++ ":" ++ d.kind.name) ++ ")"

def debugText (r : Relation) : String :=
  "Relation \x7b name: " ++ optionDebugText quotedText r.name ++
    ", schema: " ++ r.schema.debugText ++
    ", materialized: " ++ toString r.materialized ++ " \x7d"

def plainJsonLines (r : Relation) : String :=
  "\n".intercalate (r.records.map fun record => record.toJson.text)

end Relation

def Grouping.debugText (g : Grouping) : String :=
  "GroupBy \x7b columns: " ++ textsDebugText g.columns ++
    ", groups: " ++ toString g.groups.length ++
    ", rows: " ++ toString g.rows.length ++ " \x7d"

def CodecRegistry.debugText (registry : CodecRegistry) : String :=
  "CodecRegistry \x7b formats: " ++ textsDebugText registry.formats ++ " \x7d"

end RecordFlow
