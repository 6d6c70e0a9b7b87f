import RecordFlow.Query.Condition
import RecordFlow.Query.ExpressionReader
import RecordFlow.Sampling
import RecordFlow.Stream.Item

/-!
# Stages of a pipeline

A `Stage` looks at the items of a stream one by one. It lets failures pass, and of each record makes
another record, nothing or a failure. What a stage remembers from one record to the next is part of
it.
-/

namespace RecordFlow

/-- What is done to the records of a stream. -/
inductive Stage where
  /-- Only some records stay. -/
  | filter (keeps : Record → Bool)
  /-- Only the records that an expression is true for stay. One moment stands for the clock through
  the whole traversal; where the clock is read at each evaluation of `NOW`, and goes on in between,
  later records can see later moments than this one. -/
  | query (e : Query.Expression) (now : Timestamp)
  /-- Records are restricted to some attributes. -/
  | select (columns : List String)
  /-- Records stay by their draws, of which some have been made. -/
  | sample (rate : Rate) (draws : Draws) (drawn : Nat)
  /-- Records stay whose hash has not been seen. -/
  | distinct (seen : List UInt64)

namespace Stage

/-- What a record becomes, and the stage for the next one. -/
def onRecord (s : Stage) (r : Record) : Option Item × Stage :=
  match s with
  | .filter keeps => (if keeps r then some (.ok r) else none, s)
  | .query e now =>
    (match e.matches? now r with
      | .ok true => some (.ok r)
      | .ok false => none
      | .error fault => some (.error fault), s)
  | .select columns => (some (.ok (r.project columns)), s)
  | .sample rate draws drawn =>
    (if rate.keeps (draws drawn) then some (.ok r) else none, .sample rate draws (drawn + 1))
  | .distinct seen =>
    let h := r.contentHash
    if seen.contains h then (none, s) else (some (.ok r), .distinct (h :: seen))

/-- What an item becomes, and the stage for the next one. -/
def onItem (s : Stage) : Item → Option Item × Stage
  | .error fault => (some (.error fault), s)
  | .ok r => s.onRecord r

def run (s : Stage) : List Item → List Item
  | [] => []
  | item :: rest =>
    match s.onItem item with
    | (none, s) => run s rest
    | (some out, s) => out :: run s rest

/-- The stage of a filter on the value of an attribute. -/
def truthy (name : String) : Stage :=
  .filter fun r => (r.value name).truthy

/-- The stage of a filter in disjunctive normal form. -/
def ofFilter (f : Query.Filter) : Stage :=
  .filter f.holds

def ofQuery (s : String) (now : Timestamp) : Except Fault Stage := do
  return .query (← Query.Expression.ofText s) now

def ofFraction (fraction : Binary64) (draws : Draws) : Except Fault Stage := do
  return .sample (← Rate.ofFraction fraction) draws 0

end Stage

end RecordFlow
