import RecordFlow.Fault
import RecordFlow.Query.Function
import RecordFlow.Query.Operator

/-!
# Filter expressions

An `Expression` is the tree of a filter. `Expression.value` evaluates it against a record at a
moment; conjunctions and disjunctions look at their second operand only when the first does not
decide, so an error there may go unnoticed. `Expression.matches?` asks whether the value counts as
true.
-/

namespace RecordFlow.Query

/-- The tree of a filter. -/
inductive Expression where
  | constant (v : Value)
  | variable (name : String)
  | list (items : List Expression)
  | call (function : Function) (args : List Expression)
  | compare (operator : Operator) (left right : Expression)
  | not (operand : Expression)
  | and (left right : Expression)
  | or (left right : Expression)

instance : Inhabited Expression := ⟨.constant .null⟩

namespace Expression

/-! ### Evaluation -/

mutual

/-- The value of an expression for a record at a moment, the same one wherever `NOW` stands. -/
def value (now : Timestamp) (r : Record) : Expression → Except Fault Value
  | .constant v => .ok v
  | .variable name => .ok (r.atPath name)
  | .list items => (itemValues now r items).map .list
  | .call function args => (itemValues now r args).bind (function.call now)
  | .compare operator left right => do
    let a ← value now r left
    let b ← value now r right
    return .bool (operator.apply a b)
  | .not operand => (value now r operand).map fun v => .bool !v.truthy
  | .and left right => do
    let a ← value now r left
    if a.truthy then (value now r right).map fun v => .bool v.truthy else return .bool false
  | .or left right => do
    let a ← value now r left
    if a.truthy then return .bool true else (value now r right).map fun v => .bool v.truthy

def itemValues (now : Timestamp) (r : Record) : List Expression → Except Fault (List Value)
  | [] => .ok []
  | e :: rest => do
    let v ← value now r e
    return v :: (← itemValues now r rest)

end

def matches? (now : Timestamp) (r : Record) (e : Expression) : Except Fault Bool :=
  (e.value now r).map Value.truthy

/-! ### Variables -/

mutual

/-- The variables of an expression, from left to right, with repeats. -/
def occurrences : Expression → List String
  | .constant _ => []
  | .variable name => [name]
  | .list items => itemOccurrences items
  | .call _ args => itemOccurrences args
  | .compare _ left right => occurrences left ++ occurrences right
  | .not operand => occurrences operand
  | .and left right => occurrences left ++ occurrences right
  | .or left right => occurrences left ++ occurrences right

def itemOccurrences : List Expression → List String
  | [] => []
  | e :: rest => occurrences e ++ itemOccurrences rest

end

/-- The variables of an expression in the order in which they first occur. -/
def variableNames (e : Expression) : List String :=
  e.occurrences.eraseDups

/-! ### Text -/

def constantText : Value → String
  | .text s => "'" ++ s ++ "'"
  | v => v.display

mutual

def text : Expression → String
  | .constant v => constantText v
  | .variable name => name
  | .list items => "(" ++ ", ".intercalate (itemTexts items) ++ ")"
  | .call function args => function.name ++ "(" ++ ", ".intercalate (itemTexts args) ++ ")"
  | .compare operator left right => text left ++ " " ++ operator.symbol ++ " " ++ text right
  | .not operand => "NOT (" ++ text operand ++ ")"
  | .and left right => "(" ++ text left ++ " AND " ++ text right ++ ")"
  | .or left right => "(" ++ text left ++ " OR " ++ text right ++ ")"

def itemTexts : List Expression → List String
  | [] => []
  | e :: rest => text e :: itemTexts rest

end

end Expression

end RecordFlow.Query
