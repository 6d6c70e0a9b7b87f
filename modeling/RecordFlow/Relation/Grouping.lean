import RecordFlow.Relation.Basic

/-!
# Grouping

`Relation.groupBy` parts the rows of a relation by the values in some columns. Two rows belong
together when the keys of these values are equal, so numbers of both kinds group by their value.
Groups stand in the order of their first rows.
-/

namespace RecordFlow

/-- The rows that agree in the columns of a grouping. -/
structure Group where
  /-- The values in these columns, as the first row has them. -/
  values : List Value
  /-- The positions of the rows, in order. -/
  positions : List Nat

/-- The rows of a relation in groups. -/
structure Grouping where
  schema : Schema
  rows : List Tuple
  columns : List String
  groups : List Group

namespace Grouping

def valuesAt (places : List Nat) (row : Tuple) : List Value :=
  places.map fun p => row[p]?.getD .null

/-- The groups by their keys, with one more row: in the group of its key, or in a new last one. -/
def join (key : List UInt8) (values : List Value) (position : Nat) :
    List (List UInt8 × Group) → List (List UInt8 × Group)
  | [] => [(key, ⟨values, [position]⟩)]
  | (k, g) :: rest =>
    if k == key then (k, { g with positions := g.positions ++ [position] }) :: rest
    else (k, g) :: join key values position rest

/-- The groups of some rows by the values at some places. -/
def groupsOf (places : List Nat) (rows : List Tuple) : List (List UInt8 × Group) :=
  rows.zipIdx.foldl (fun groups (row, position) =>
    let values := valuesAt places row
    join (values.flatMap Value.key) values position groups) []

def counts (g : Grouping) : List (List Value × Nat) :=
  g.groups.map fun group => (group.values, group.positions.length)

def relationOf (g : Grouping) (group : Group) : Relation :=
  { name := none, schema := g.schema, rows := group.positions.filterMap (g.rows[·]?),
    materialized := true }

def relations (g : Grouping) : List (List Value × Relation) :=
  g.groups.map fun group => (group.values, g.relationOf group)

end Grouping

/-- The rows of a relation grouped by some columns, at least one. -/
def Relation.groupBy (r : Relation) (columns : List String) : Except Fault Grouping := do
  if columns.isEmpty then .error .noGroupingColumn
  else
    let places ← columns.mapM r.position
    return ⟨r.schema.withoutStatistics, r.rows, columns,
      (Grouping.groupsOf places r.rows).map (·.2)⟩

end RecordFlow
