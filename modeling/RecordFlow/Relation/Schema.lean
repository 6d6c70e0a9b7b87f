import RecordFlow.Value.Basic

/-!
# Schemas

A schema gives every attribute of a relation its domain, in order: the type of its values and,
where they are known, statistics about them.
-/

namespace RecordFlow

/-- The type of an attribute and what is known about its values. -/
structure AttributeDomain where
  kind : LogicalType
  /-- The least value. -/
  min : Option Value := none
  /-- The greatest value. -/
  max : Option Value := none
  /-- The number of values that are not NULL. -/
  count : Option Nat := none
  /-- The number of different values that are not NULL. -/
  unique : Option Nat := none
  /-- Some value is NULL. -/
  nullable : Option Bool := none

namespace AttributeDomain

def hasStatistics (d : AttributeDomain) : Bool :=
  d.min.isSome || d.max.isSome || d.count.isSome || d.unique.isSome || d.nullable.isSome

/-- The domain without what is known beyond the type. -/
def withoutStatistics (d : AttributeDomain) : AttributeDomain :=
  { kind := d.kind }

end AttributeDomain

abbrev Schema := Attributes AttributeDomain

def Schema.withoutStatistics (s : Schema) : Schema :=
  s.map fun (name, d) => (name, d.withoutStatistics)

end RecordFlow
