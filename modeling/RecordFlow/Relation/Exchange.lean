import RecordFlow.Relation.Basic
import RecordFlow.Value.Stored

/-!
# Exchange formats

A relation leaves and enters the library through a `Codec`, which a `CodecRegistry` finds by the
name of its format. The format that is always known is `jsonl`: a line for the schema and a line
for each row, all of them in the stored form of values.
-/

namespace RecordFlow

/-- A way to write and read relations. -/
structure Codec where
  format : String
  write : Relation → String
  read : String → Except Fault Relation

/-! ### The schema line -/

def AttributeDomain.toStored (d : AttributeDomain) : Json :=
  .object ([("kind", .string d.kind.name)] ++
    (d.min.map fun v => ("min", v.toStored)).toList ++
    (d.max.map fun v => ("max", v.toStored)).toList ++
    (d.count.map fun n => ("count", .int n)).toList ++
    (d.unique.map fun n => ("unique", .int n)).toList ++
    (d.nullable.map fun b => ("nullable", .bool b)).toList)

namespace AttributeDomain

/-- The names under which a domain is written, in order. -/
def fieldNames : List String :=
  ["kind", "min", "max", "count", "unique", "nullable"]

/-- The fields of a domain by their names: the members of an object, of which those with other
names do not matter, or the elements of an array in order. No field may be given twice. -/
def fieldsOf? : Json.Written → Option (List (String × Json.Written))
  | .object members => do
    let named ← members.mapM fun (name, w) => do return (String.ofList (← Json.joinHalves name), w)
    let fields := named.filter fun (name, _) => fieldNames.contains name
    if (fields.map (·.1)).Nodup then some fields else none
  | .array elements =>
    if elements.length ≤ fieldNames.length then some (fieldNames.zip elements) else none
  | _ => none

/-- The nesting left for a field: the schema and the domain are around it. -/
def fieldDepth : Nat := Json.maxDepth - 2

def optional? {α : Type} (fields : List (String × Json.Written)) (name : String)
    (read : Json → Option α) : Option (Option α) :=
  match fields.lookup name with
  | none | some .null => some none
  | some w => do return some (← read (← w.value? fieldDepth))

def kindOf? : Json → Option LogicalType
  | .string name | .object [(name, .null)] => LogicalType.ofName? name
  | _ => none

def countOf? : Json → Option Nat
  | .int n => if 0 ≤ n && n < 2 ^ 64 then some n.toNat else none
  | _ => none

def flagOf? : Json → Option Bool
  | .bool b => some b
  | _ => none

def ofWritten? (w : Json.Written) : Option AttributeDomain := do
  let fields ← fieldsOf? w
  let kind ← kindOf? (← (← fields.lookup "kind").value? fieldDepth)
  return {
    kind := kind
    min := ← optional? fields "min" Value.ofStored?
    max := ← optional? fields "max" Value.ofStored?
    count := ← optional? fields "count" countOf?
    unique := ← optional? fields "unique" countOf?
    nullable := ← optional? fields "nullable" flagOf? }

end AttributeDomain

namespace Schema

/-- What is written about the attributes of a relation. -/
def toStored (s : Schema) : Json :=
  .object (s.map fun (name, d) => (name, d.toStored))

def ofWritten? : Json.Written → Option Schema
  | .object members => do
    let pairs ← members.mapM fun (name, w) => do
      return (String.ofList (← Json.joinHalves name), ← AttributeDomain.ofWritten? w)
    return Attributes.ofPairs pairs
  | _ => none

end Schema

/-! ### The format of lines -/

namespace JsonLines

def write (r : Relation) : String :=
  "\n".intercalate (r.schema.toStored.text :: r.records.map Record.line)

/-- The rows that lines stand for, the first of them being line number `position`. -/
def readRows (schema : Schema) (position : Nat) : List (List Char) → Except Fault (List Tuple)
  | [] => .ok []
  | line :: rest =>
    match Record.ofLine? line with
    | none => .error (.undecodableRow position)
    | some r => do
      let rows ← readRows schema (position + 1) rest
      return schema.names.map r.value :: rows

def read (s : String) : Except Fault Relation :=
  match s.toList.splitOn '\n' with
  | [] | [] :: _ => .error .noSchemaLine
  | header :: lines =>
    match (Json.Written.read? header).bind Schema.ofWritten? with
    | none => .error .undecodableSchema
    | some schema => (readRows schema 0 lines).map (Relation.ofTuples schema)

def codec : Codec := ⟨"jsonl", write, read⟩

end JsonLines

/-! ### Registries -/

/-- The codecs that are known, by their formats. -/
abbrev CodecRegistry := Attributes Codec

namespace CodecRegistry

/-- The registry with one more codec, which takes the place of one for the same format. -/
def register (registry : CodecRegistry) (codec : Codec) : CodecRegistry :=
  registry.put codec.format codec

/-- The registry of the codecs that are always known. -/
def builtIn : CodecRegistry :=
  register [] JsonLines.codec

def find (registry : CodecRegistry) (format : String) : Except Fault Codec :=
  (registry.get? format).elim (.error (.noCodec format)) .ok

def formats (registry : CodecRegistry) : List String :=
  registry.names.mergeSort (· ≤ ·)

end CodecRegistry

def Relation.serialize (r : Relation) (registry : CodecRegistry) (format : String) :
    Except Fault String :=
  (registry.find format).map (·.write r)

def Relation.deserialize (registry : CodecRegistry) (format s : String) :
    Except Fault Relation := do
  (← registry.find format).read s

end RecordFlow
