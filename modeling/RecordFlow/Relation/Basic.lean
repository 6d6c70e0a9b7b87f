import RecordFlow.Query.Condition
import RecordFlow.Relation.Schema
import RecordFlow.Sampling
import RecordFlow.Value.Coercion
import RecordFlow.Value.Hash

/-!
# Relations

A `Relation` is a schema and rows whose values stand in the order of its attributes.
`Relation.ofRecords` infers the schema from the first record and fits every record to it; a value
that does not fit its column makes the column one of type `other` from then on. Operations that
drop rows or columns also drop the statistics, because these describe the rows of the relation they
were computed for.

The rows of a relation that was derived from another one count as computed only once something has
asked for them; `materialized` tells whether that has happened. `Relation.WellShaped` states what
rows and schema promise each other, and a `ShapedRelation` is a relation that keeps the promise.
-/

namespace RecordFlow

/-- A table: attributes with domains, and rows of values in their order. -/
structure Relation where
  name : Option String
  schema : Schema
  rows : List Tuple
  /-- The rows have been computed. -/
  materialized : Bool

namespace Relation

/-- The names of attributes are distinct and every row has a value for each attribute. -/
def WellShaped (r : Relation) : Prop :=
  r.schema.names.Nodup ∧ ∀ row ∈ r.rows, row.length = r.schema.length

instance (r : Relation) : Decidable r.WellShaped :=
  inferInstanceAs (Decidable (_ ∧ _))

end Relation

/-- A relation whose rows fit its schema. -/
structure ShapedRelation extends Relation where
  shaped : toRelation.WellShaped

/-- A relation whose rows fit its schema and whose values are well formed. -/
structure ProperRelation extends ShapedRelation where
  proper : ∀ row ∈ rows, ∀ v ∈ row, v.WellFormed

namespace Relation

/-! ### Construction -/

/-- The schema that a record suggests. -/
def suggestedSchema (r : Record) : Schema :=
  r.map fun (name, v) => (name, { kind := v.logicalType })

/-- A value in a column, and the domain of the column afterwards. -/
def fitValue (d : AttributeDomain) (v : Value) : AttributeDomain × Value :=
  match v.coerce d.kind with
  | some coerced => (d, coerced)
  | none => ({ d with kind := .other }, v)

/-- The record as a row, and the schema afterwards. -/
def fitRecord (schema : Schema) (r : Record) : Schema × Tuple :=
  (schema.map fun (name, d) => (name, (fitValue d (r.value name)).1),
    schema.map fun (name, d) => (fitValue d (r.value name)).2)

/-- The records as rows, one after the other, and the schema afterwards. -/
def fitRecords (schema : Schema) : List Record → Schema × List Tuple
  | [] => (schema, [])
  | r :: rest =>
    let (schema, row) := fitRecord schema r
    let (schema, rows) := fitRecords schema rest
    (schema, row :: rows)

/-- The relation of some records. Its attributes are those of the first one. -/
def ofRecords (records : List Record) : Relation :=
  let (schema, rows) := fitRecords (records.head?.elim [] suggestedSchema) records
  { name := none, schema := schema, rows := rows, materialized := true }

/-- The row cut or filled up with NULL to a width. -/
def fitWidth (width : Nat) (row : Tuple) : Tuple :=
  row.take width ++ List.replicate (width - row.length) .null

/-- The relation of a schema and rows of any width. -/
def ofTuples (schema : Schema) (rows : List Tuple) : Relation :=
  { name := none, schema := schema, rows := rows.map (fitWidth schema.length),
    materialized := false }

theorem length_fitWidth (width : Nat) (row : Tuple) : (fitWidth width row).length = width := by
  rw [fitWidth, List.length_append, List.length_take, List.length_replicate]
  omega

/-- Rows of any width are cut or filled up to the width of the schema. -/
theorem wellShaped_ofTuples {schema : Schema} (h : schema.names.Nodup) (rows : List Tuple) :
    (ofTuples schema rows).WellShaped := by
  refine ⟨h, ?_⟩
  intro row hrow
  obtain ⟨source, -, rfl⟩ := List.mem_map.1 hrow
  exact length_fitWidth _ _

def withName (r : Relation) (name : String) : Relation :=
  { r with name := some name }

def materialize (r : Relation) : Relation :=
  { r with materialized := true }

/-! ### Rows and columns -/

def recordOf (r : Relation) (row : Tuple) : Record :=
  r.schema.names.zip row

def records (r : Relation) : List Record :=
  r.rows.map r.recordOf

/-- One record, if there are so many. -/
def record? (r : Relation) (offset : Nat) : Option Record :=
  r.rows[offset]?.map r.recordOf

/-- How many records are fetched when no number is given. -/
def defaultFetchSize : Nat := 1

/-- Some of the records, from an offset on. -/
def recordsFrom (r : Relation) (offset : Nat) (size : Option Nat) : List Record :=
  ((r.rows.drop offset).take (size.getD defaultFetchSize)).map r.recordOf

def position (r : Relation) (name : String) : Except Fault Nat :=
  (r.schema.position? name).elim (.error (.notInRelation name)) .ok

def valuesAt (r : Relation) (position : Nat) : List Value :=
  r.rows.map fun row => row[position]?.getD .null

def column (r : Relation) (name : String) : Except Fault (List Value) :=
  (r.position name).map r.valuesAt

/-- The elements of a value: those of a list, none of NULL, and any other value itself. -/
def elementsOf : Value → List Value
  | .null => []
  | .list elements => elements
  | v => [v]

def columnElements (r : Relation) (name : String) : Except Fault (List Value) :=
  (r.column name).map (·.flatMap elementsOf)

/-! ### Relational algebra -/

def withRows (r : Relation) (rows : List Tuple) : Relation :=
  { name := r.name, schema := r.schema.withoutStatistics, rows := rows, materialized := false }

def select (r : Relation) (f : Query.Filter) : Except Fault Relation := do
  let placed ← f.place r.schema
  return r.withRows (r.rows.filter placed.holds)

/-- The positions of some columns, each once; unknown names have none. -/
def places (r : Relation) (columns : List String) : List Nat :=
  (columns.filterMap r.schema.position?).eraseDups

/-- The relation with only some columns, in their order. -/
def project (r : Relation) (columns : List String) : Relation :=
  let places := r.places columns
  { name := r.name
    schema := Schema.withoutStatistics (places.filterMap (r.schema[·]?))
    rows := r.rows.map fun row => places.map fun p => row[p]?.getD .null
    materialized := false }

/-- The elements of a list without those whose hash occurred before, or among `seen`. -/
def firstsBy {α : Type} (hash : α → UInt64) (seen : List UInt64) : List α → List α
  | [] => []
  | a :: rest =>
    let h := hash a
    if seen.contains h then firstsBy hash seen rest else a :: firstsBy hash (h :: seen) rest

def distinct (r : Relation) : Relation :=
  r.withRows (firstsBy Tuple.identityHash [] r.rows)

/-- Some of the rows, each by a draw. -/
def sample (r : Relation) (fraction : Binary64) (draws : Draws) : Except Fault Relation := do
  let rate ← Rate.ofFraction fraction
  return r.withRows (rate.sample draws 0 r.rows)

/-- The relation with another name for one attribute. -/
def rename (r : Relation) (source target : String) : Except Fault Relation := do
  let _ ← r.position source
  if source = target then return r
  else if r.schema.has target then .error (.attributeExists target)
  else
    let renamed := r.schema.map fun (name, d) => (if name = source then target else name, d)
    return { r with schema := renamed }

/-! ### Digest -/

/-- The hashes of the rows, combined without regard to their order. -/
def contentHash (r : Relation) : UInt64 :=
  r.rows.foldl (fun hash row => hash ^^^ Tuple.contentHash row) contentHashSeed

end Relation

end RecordFlow
