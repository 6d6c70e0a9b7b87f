import RecordFlow.Aggregate
import RecordFlow.Relation.Basic

/-!
# Profiles

`Relation.profile` computes the statistics of every attribute in one pass over its values.
-/

namespace RecordFlow

/-- What is known about the values of a column that have been looked at. -/
structure ColumnSummary where
  /-- The least and the greatest value. -/
  bounds : Option (Value × Value) := none
  /-- The number of values that are not NULL. -/
  count : Nat := 0
  /-- The keys of these values, each once. -/
  keys : List (List UInt8) := []
  /-- Some value was NULL. -/
  nullable : Bool := false

namespace ColumnSummary

/-- The summary with one more value. -/
def add (s : ColumnSummary) (v : Value) : ColumnSummary :=
  if v.isNull then { s with nullable := true }
  else
    { s with
      bounds := some (s.bounds.elim (v, v) (Aggregate.widen · v))
      count := s.count + 1
      keys := s.keys.insert v.key }

def ofColumn (column : List Value) : ColumnSummary :=
  column.foldl add {}

/-- A domain of the given type with the statistics of a summary. -/
def domain (s : ColumnSummary) (kind : LogicalType) : AttributeDomain where
  kind := kind
  min := s.bounds.map (·.1)
  max := s.bounds.map (·.2)
  count := some s.count
  unique := some s.keys.length
  nullable := some s.nullable

end ColumnSummary

/-- The relation with the statistics of every attribute. -/
def Relation.profile (r : Relation) : Relation where
  name := r.name
  schema := r.schema.zipIdx.map fun ((name, d), position) =>
    (name, (ColumnSummary.ofColumn (r.valuesAt position)).domain d.kind)
  rows := r.rows
  materialized := true

end RecordFlow
