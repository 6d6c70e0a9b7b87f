import RecordFlow.Fault
import RecordFlow.Query.Operator

/-!
# Filters in disjunctive normal form

A `Filter` is a disjunction of clauses, each of them a conjunction of conditions on single
attributes. It is decided against a record, where a missing attribute is NULL and a name may be a
path into nested records, or, once compiled, against a row of a relation, where every name has been
replaced by a position.
-/

namespace RecordFlow.Query

/-- A comparison of an attribute with a constant. -/
structure Condition where
  name : String
  operator : Operator
  value : Value

/-- A conjunction of conditions, at least one. -/
structure Clause where
  conditions : List Condition
  conditions_ne_nil : conditions ≠ []

/-- A disjunction of clauses, at least one. -/
structure Filter where
  clauses : List Clause
  clauses_ne_nil : clauses ≠ []

/-! ### Construction -/

/-- The condition with an operator given by its spelling. -/
def Condition.ofSpelling (name spelling : String) (value : Value) : Except Fault Condition :=
  match Operator.ofText? spelling with
  | some operator => .ok ⟨name, operator, value⟩
  | none => .error (.unknownOperator spelling)

def Clause.ofConditions (conditions : List Condition) : Except Fault Clause :=
  if h : conditions ≠ [] then .ok ⟨conditions, h⟩ else .error .emptyClause

namespace Filter

def ofClauses (clauses : List Clause) : Except Fault Filter :=
  if h : clauses ≠ [] then .ok ⟨clauses, h⟩ else .error .emptyDisjunction

/-- The filter given by attribute, operator and constant of each condition, clause by clause. -/
def ofTriples (clauses : List (List (String × String × Value))) : Except Fault Filter := do
  ofClauses (← clauses.mapM fun triples => do
    Clause.ofConditions (← triples.mapM fun (name, spelling, value) =>
      Condition.ofSpelling name spelling value))

def single (name spelling : String) (value : Value) : Except Fault Filter :=
  ofTriples [[(name, spelling, value)]]

def all (triples : List (String × String × Value)) : Except Fault Filter :=
  ofTriples [triples]

end Filter

/-! ### Decision on records -/

def Condition.holds (c : Condition) (r : Record) : Bool :=
  c.operator.apply (r.atPath c.name) c.value

/-- Every condition of the clause holds of a record. -/
def Clause.holds (c : Clause) (r : Record) : Bool :=
  c.conditions.all (·.holds r)

namespace Filter

def holds (f : Filter) (r : Record) : Bool :=
  f.clauses.any (·.holds r)

/-- The attributes that the filter names, with repeats. -/
def attributes (f : Filter) : List String :=
  f.clauses.flatMap fun c => c.conditions.map (·.name)

end Filter

/-! ### Decision on rows -/

/-- A condition on a position of a row. -/
structure PlacedCondition where
  position : Nat
  operator : Operator
  value : Value

/-- The condition holds of a row; past its end a row holds NULL. -/
def PlacedCondition.holds (c : PlacedCondition) (row : List Value) : Bool :=
  c.operator.apply (row[c.position]?.getD .null) c.value

/-- A filter on the positions of a row. -/
structure PlacedFilter where
  clauses : List (List PlacedCondition)

def PlacedFilter.holds (f : PlacedFilter) (row : List Value) : Bool :=
  f.clauses.any fun conditions => conditions.all (·.holds row)

/-- The condition on the position that its attribute has in a schema. -/
def Condition.place {α : Type} (schema : Attributes α) (c : Condition) :
    Except Fault PlacedCondition :=
  match schema.position? c.name with
  | some position => .ok ⟨position, c.operator, c.value⟩
  | none => .error (.notInSchema c.name)

/-- The filter with every attribute replaced by its position in a schema. -/
def Filter.place {α : Type} (f : Filter) (schema : Attributes α) : Except Fault PlacedFilter := do
  return ⟨← f.clauses.mapM fun c => c.conditions.mapM (·.place schema)⟩

/-! ### Text -/

def Condition.text (c : Condition) : String :=
  c.name ++ " " ++ c.operator.symbol ++ " " ++ c.value.debugText

def Clause.text (c : Clause) : String :=
  "(" ++ " AND ".intercalate (c.conditions.map Condition.text) ++ ")"

def Filter.text (f : Filter) : String :=
  " OR ".intercalate (f.clauses.map Clause.text)

end RecordFlow.Query
