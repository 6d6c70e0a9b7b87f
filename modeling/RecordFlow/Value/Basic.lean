import RecordFlow.Attributes
import RecordFlow.Binary64.Basic
import RecordFlow.Timestamp.Basic

/-!
# Values and records

A `Value` is what an attribute of a record can hold, and a `Record` is a list of named values in
order. Values nest: a list holds values and a structured value holds the fields of a record.
`Value.WellFormed` says that the names of every record inside a value are distinct. `ProperValue`
and `ProperRecord` are the values and the records for which it holds, and `NamedRecord` asks for
distinct names at the top only, which every record has that is built by `Attributes.put`.
-/

namespace RecordFlow

/-- The types that an attribute of a relation can have. -/
inductive LogicalType where
  | string
  | numeric
  | boolean
  | timestamp
  | list
  | null
  | other
deriving DecidableEq, Repr

/-- The name of a type, as schemas are written with. -/
def LogicalType.name : LogicalType → String
  | .string => "STRING"
  | .numeric => "NUMERIC"
  | .boolean => "BOOLEAN"
  | .timestamp => "TIMESTAMP"
  | .list => "LIST"
  | .null => "NULL"
  | .other => "OTHER"

def LogicalType.all : List LogicalType :=
  [.string, .numeric, .boolean, .timestamp, .list, .null, .other]

def LogicalType.ofName? (name : String) : Option LogicalType :=
  LogicalType.all.find? (·.name == name)

/-- What an attribute can hold. -/
inductive Value where
  | null
  | bool (b : Bool)
  | int (n : Int64)
  | float (x : Binary64)
  | text (s : String)
  | timestamp (t : Timestamp)
  | list (elements : List Value)
  | struct (fields : List (String × Value))

abbrev Record := Attributes Value

instance : Inhabited Value := ⟨.null⟩

namespace Value

/-! ### Kinds -/

def isNull : Value → Bool
  | .null => true
  | _ => false

def isNumeric : Value → Bool
  | .int _ | .float _ => true
  | _ => false

def logicalType : Value → LogicalType
  | .null => .null
  | .bool _ => .boolean
  | .int _ | .float _ => .numeric
  | .text _ => .string
  | .timestamp _ => .timestamp
  | .list _ => .list
  | .struct _ => .other

def kindName : Value → String
  | .null => "null"
  | .bool _ => "bool"
  | .int _ => "int"
  | .float _ => "float"
  | .text _ => "text"
  | .timestamp _ => "timestamp"
  | .list _ => "list"
  | .struct _ => "struct"

/-- What counts as true in a filter: all but NULL, false, zero, the empty text and the empty
list. -/
def truthy : Value → Bool
  | .null => false
  | .bool b => b
  | .int n => n != 0
  | .float x => !x.isZero
  | .text s => !s.isEmpty
  | .list elements => !elements.isEmpty
  | .timestamp _ | .struct _ => true

/-! ### Well-formed values -/

mutual

/-- The names of every record inside the value are distinct. -/
def WellFormed : Value → Prop
  | .list elements => ElementsWellFormed elements
  | .struct fields => (fields.map (·.1)).Nodup ∧ FieldsWellFormed fields
  | _ => True

def ElementsWellFormed : List Value → Prop
  | [] => True
  | v :: rest => WellFormed v ∧ ElementsWellFormed rest

def FieldsWellFormed : List (String × Value) → Prop
  | [] => True
  | (_, v) :: rest => WellFormed v ∧ FieldsWellFormed rest

end

mutual

instance decidableWellFormed : (v : Value) → Decidable v.WellFormed
  | .list elements => decidableElementsWellFormed elements
  | .struct fields => @instDecidableAnd _ _ inferInstance (decidableFieldsWellFormed fields)
  | .null | .bool _ | .int _ | .float _ | .text _ | .timestamp _ => instDecidableTrue

instance decidableElementsWellFormed : (elements : List Value) →
    Decidable (ElementsWellFormed elements)
  | [] => instDecidableTrue
  | v :: rest =>
    @instDecidableAnd _ _ (decidableWellFormed v) (decidableElementsWellFormed rest)

instance decidableFieldsWellFormed : (fields : List (String × Value)) →
    Decidable (FieldsWellFormed fields)
  | [] => instDecidableTrue
  | (_, v) :: rest =>
    @instDecidableAnd _ _ (decidableWellFormed v) (decidableFieldsWellFormed rest)

end

end Value

/-- A value in which the names of every record are distinct. -/
abbrev ProperValue := {v : Value // v.WellFormed}

/-- A record of distinct names. -/
abbrev NamedRecord := {r : Record // (Attributes.names r).Nodup}

/-- A record of distinct names, as is every record inside it. -/
abbrev ProperRecord := {r : Record // (Value.struct r).WellFormed}

/-- The record, with what is known of its own names only. -/
def ProperRecord.named (r : ProperRecord) : NamedRecord :=
  ⟨r.val, r.property.1⟩

/-- The record of some fields that are put one after the other. -/
def NamedRecord.ofPairs (pairs : List (String × Value)) : NamedRecord :=
  ⟨Attributes.ofPairs pairs, Attributes.nodup_names_ofPairs pairs⟩

namespace Value

/-! ### Sameness -/

mutual

/-- Two values of one kind with the same content. Numbers of the two kinds differ, both zeros are
the same, NaN is not the same as itself, and the order of fields does not matter. -/
def same : Value → Value → Bool
  | .null, .null => true
  | .bool a, .bool b => a == b
  | .int a, .int b => a == b
  | .float a, .float b => a.numericallyEqual b
  | .text a, .text b => a == b
  | .timestamp a, .timestamp b => a == b
  | .list as, .list bs => sameElements as bs
  | .struct as, .struct bs => as.length == bs.length && sameFields as bs
  | _, _ => false

def sameElements : List Value → List Value → Bool
  | [], [] => true
  | a :: as, b :: bs => same a b && sameElements as bs
  | _, _ => false

/-- Every field of the first record has its like, under its name, in the second. -/
def sameFields : List (String × Value) → List (String × Value) → Bool
  | [], _ => true
  | (name, a) :: as, bs =>
    (match bs.lookup name with
      | some b => same a b
      | none => false) && sameFields as bs

end

end Value

/-! ### Records -/

namespace Record

/-- The value of an attribute; an absent one is NULL. -/
def value (r : Record) (name : String) : Value :=
  (r.get? name).getD .null

/-- The value at the end of a path through nested records, NULL where the path leaves them. -/
def follow : Value → List String → Value
  | v, [] => v
  | .struct fields, name :: rest => follow (Record.value fields name) rest
  | _, _ :: _ => .null

/-- The value at a dotted path. An attribute of that very name comes first; otherwise the parts of
the path lead through nested records. -/
def atPath (r : Record) (path : String) : Value :=
  match r.get? path with
  | some v => v
  | none => follow (.struct r) ((path.toList.splitOn '.').map String.ofList)

/-- The record with the given attributes in the given order, absent ones being NULL. -/
def project (r : Record) (columns : List String) : Record :=
  Attributes.ofPairs (columns.map fun name => (name, r.value name))

/-- Two records with the same fields, in any order. -/
def same (r s : Record) : Bool :=
  (Value.struct r).same (.struct s)

end Record

end RecordFlow
