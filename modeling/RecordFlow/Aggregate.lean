import RecordFlow.Fault
import RecordFlow.Value.Order

/-!
# Reductions of a column

Every reduction passes over NULL. The extremes take any values, in the order of
`Value.compareForSort`, and of equal values the first; the arithmetic ones take numbers only. A sum
stays an integer until it leaves 64 bits or meets a floating-point number. Reductions of a column
take its name, which their failures mention.
-/

namespace RecordFlow

def Value.toBinary64? : Value → Option Binary64
  | .int n => some (Binary64.ofInt n.toInt)
  | .float x => some x
  | _ => none

namespace Aggregate

/-- The values that are not NULL. -/
def present (column : List Value) : List Value :=
  column.filter (!·.isNull)

/-! ### Extremes -/

/-- The first of the values that no other one precedes on the given side. -/
def extreme? (side : Ordering) (values : List Value) : Option Value :=
  match values with
  | [] => none
  | first :: rest =>
    some (rest.foldl (fun best v => if v.compareForSort best == side then v else best) first)

def min (name : String) (column : List Value) : Except Fault Value :=
  (extreme? .lt (present column)).elim (.error (.emptySequence "min" name)) .ok

def max (name : String) (column : List Value) : Except Fault Value :=
  (extreme? .gt (present column)).elim (.error (.emptySequence "max" name)) .ok

/-- The least and the greatest of the values seen so far and one more. -/
def widen (bounds : Value × Value) (v : Value) : Value × Value :=
  (if v.compareForSort bounds.1 == .lt then v else bounds.1,
    if v.compareForSort bounds.2 == .gt then v else bounds.2)

def minMax (name : String) (column : List Value) : Except Fault (Value × Value) :=
  match present column with
  | [] => .error (.emptySequence "min_max" name)
  | first :: rest => .ok (rest.foldl widen (first, first))

/-! ### Sum -/

/-- The sum of two integers, an integer if it fits 64 bits. -/
def addIntegers (a b : Int64) : Value :=
  let n := a.toInt + b.toInt
  if -2 ^ 63 ≤ n && n < 2 ^ 63 then .int (Int64.ofInt n)
  else .float ((Binary64.ofInt a.toInt).add (Binary64.ofInt b.toInt))

def add? (total v : Value) : Option Value :=
  match total, v with
  | .int a, .int b => some (addIntegers a b)
  | _, _ => do return .float ((← total.toBinary64?).add (← v.toBinary64?))

/-- The sum of a running total and the values that are not NULL. -/
def sumFrom (name : String) (total : Value) : List Value → Except Fault Value
  | [] => .ok total
  | v :: rest =>
    if v.isNull then sumFrom name total rest
    else match add? total v with
      | some total => sumFrom name total rest
      | none => .error (.notNumeric "sum" name v.kindName)

/-- The sum of a column, zero if there is nothing to add. -/
def sum (name : String) (column : List Value) : Except Fault Value :=
  sumFrom name (.int 0) column

/-! ### Mean and spread -/

/-- The numbers of a column, as floating-point numbers. -/
def numbers (reduction name : String) (column : List Value) : Except Fault (List Binary64) :=
  (present column).mapM fun v =>
    v.toBinary64?.elim (.error (.notNumeric reduction name v.kindName)) .ok

def meanOf (xs : List Binary64) : Binary64 :=
  (Binary64.sum xs).div (Binary64.ofInt xs.length)

def mean (name : String) (column : List Value) : Except Fault Value := do
  let xs ← numbers "mean" name column
  if xs.isEmpty then .error (.emptySequence "mean" name) else return .float (meanOf xs)

/-- The sample variance of some numbers: squared distances from the mean, over one less than their
number. -/
def spread (name : String) (xs : List Binary64) : Except Fault Binary64 :=
  if xs.length < 2 then .error (.tooFewValues name xs.length)
  else
    let mean := meanOf xs
    let squares := xs.map fun x => (x.sub mean).mul (x.sub mean)
    .ok ((Binary64.sum squares).div ((Binary64.ofInt xs.length).sub .one))

def variance (name : String) (column : List Value) : Except Fault Value := do
  return .float (← spread name (← numbers "variance" name column))

def standardDeviation (name : String) (column : List Value) : Except Fault Value := do
  return .float (← spread name (← numbers "standard_deviation" name column)).sqrt

end Aggregate

end RecordFlow
