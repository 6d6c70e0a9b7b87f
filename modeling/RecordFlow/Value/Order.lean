import RecordFlow.Value.Key

/-!
# Comparison of values

`Value.compare?` orders values of one family and nothing else; an integer and a floating-point
number compare by their exact values. `Value.equal` is the equality of filters, in which NULL
equals NULL. `Value.compareForSort` orders all values: those that `compare?` leaves apart are
ordered by their grouping keys.
-/

namespace RecordFlow

namespace Binary64

/-- The order of an integer and a number. Integers past `2 ^ 53` are rounded first, so a tie with
the rounded integer is settled on whole numbers. -/
def compareInt? (n : Int) (x : Binary64) : Option Ordering :=
  match (ofInt n).compare? x with
  | some .eq => some (compare n x.truncate)
  | order => order

end Binary64

namespace Value

mutual

/-- The order of two values of one family. NULL and NaN compare with nothing. -/
def compare? : Value → Value → Option Ordering
  | .int a, .int b => some (compare a.toInt b.toInt)
  | .float a, .float b => a.compare? b
  | .int a, .float b => Binary64.compareInt? a.toInt b
  | .float a, .int b => (Binary64.compareInt? b.toInt a).map Ordering.swap
  | .bool a, .bool b => some (compare a.toNat b.toNat)
  | .text a, .text b => some (compareBytes (utf8Bytes a) (utf8Bytes b))
  | .timestamp a, .timestamp b => some (a.compare b)
  | .list as, .list bs => compareElements? as bs
  | _, _ => none

/-- The order of two lists by their first elements that are not equal; a list comes before its
extensions. -/
def compareElements? : List Value → List Value → Option Ordering
  | [], [] => some .eq
  | [], _ :: _ => some .lt
  | _ :: _, [] => some .gt
  | a :: as, b :: bs =>
    match compare? a b with
    | some .eq => compareElements? as bs
    | order => order

end

mutual

/-- The equality of filters: NULL equals NULL, numbers are equal by value, and structured values
have to be the same. -/
def equal : Value → Value → Bool
  | .null, .null => true
  | .list as, .list bs => equalElements as bs
  | .struct as, .struct bs => Record.same as bs
  | a, b => compare? a b == some .eq

def equalElements : List Value → List Value → Bool
  | [], [] => true
  | a :: as, b :: bs => equal a b && equalElements as bs
  | _, _ => false

end

def compareForSort (a b : Value) : Ordering :=
  (compare? a b).getD (compareBytes a.key b.key)

end Value

end RecordFlow
