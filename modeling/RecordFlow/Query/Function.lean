import RecordFlow.Fault
import RecordFlow.Text.Case
import RecordFlow.Text.Letter
import RecordFlow.Value.Coercion

/-!
# Functions of expressions

The scalar functions that filter expressions can call. `Function.call` checks the number of
arguments, gives NULL when the first argument is NULL, and refuses arguments that the function has
no value for.
-/

namespace RecordFlow.Query

/-- The functions. -/
inductive Function where
  | upper
  | lower
  | length
  | trim
  | abs
  | round
  | int
  | float
  | string
  | year
  | month
  | day
  | now
deriving DecidableEq, Repr

namespace Function

def name : Function → String
  | .upper => "UPPER"
  | .lower => "LOWER"
  | .length => "LENGTH"
  | .trim => "TRIM"
  | .abs => "ABS"
  | .round => "ROUND"
  | .int => "INT"
  | .float => "FLOAT"
  | .string => "STRING"
  | .year => "YEAR"
  | .month => "MONTH"
  | .day => "DAY"
  | .now => "NOW"

/-- All functions, in the order of their names. -/
def sorted : List Function :=
  [.abs, .day, .float, .int, .length, .lower, .month, .now, .round, .string, .trim, .upper, .year]

def ofName? (s : String) : Option Function :=
  let upper := String.ofList (Text.asciiUpper s.toList)
  sorted.find? (·.name == upper)

/-- The least and the greatest number of arguments. -/
def arity : Function → Nat × Nat
  | .now => (0, 0)
  | .round => (1, 2)
  | _ => (1, 1)

/-! ### Values -/

/-- The integer part of a number, held within 64 bits. -/
def toInt64 (x : Binary64) : Int64 :=
  Int64.ofInt (max (-2 ^ 63) (min (2 ^ 63 - 1) x.truncate))

/-- The absolute value; the least integer has none. -/
def absolute : Value → Option Value
  | .int n => if n.toInt = -2 ^ 63 then none else some (.int n.abs)
  | .float x => some (.float x.abs)
  | _ => none

/-- The number of decimal places that a second argument asks for. -/
def decimals? : Option Value → Option Int
  | none | some .null => some 0
  | some (.int n) => if -2 ^ 31 ≤ n.toInt && n.toInt < 2 ^ 31 then some n.toInt else none
  | some _ => none

/-- A number rounded to some decimal places: scaled, rounded to a whole number, and scaled back. -/
def rounded (decimals : Int) : Value → Option Value
  | .float x =>
    let scale := Binary64.scaleOfTen decimals
    some (.float ((x.mul scale).roundHalfAway.div scale))
  | .int n => some (.int n)
  | _ => none

def integral : Value → Option Value
  | .int n => some (.int n)
  | .float x => if x.isFinite then some (.int (toInt64 x)) else none
  | _ => none

def toInteger : Value → Option Value
  | .bool b => some (.int (if b then 1 else 0))
  | .text s => ((Value.text s).coerce .numeric).bind integral
  | v => integral v

def floating : Value → Option Value
  | .int n => some (.float (Binary64.ofInt n.toInt))
  | .float x => some (.float x)
  | _ => none

def toFloat : Value → Option Value
  | .text s => ((Value.text s).coerce .numeric).bind floating
  | v => floating v

/-- The number of characters of a text or of elements of a list. -/
def size : Value → Option Value
  | .text s => some (.int (Int64.ofNat s.length))
  | .list elements => some (.int (Int64.ofNat elements.length))
  | _ => none

def onText (f : List Char → List Char) : Value → Option Value
  | .text s => some (.text (String.ofList (f s.toList)))
  | _ => none

def timestampOf? : Value → Option Timestamp
  | .timestamp t => some t
  | .text s => Timestamp.parseIso? s
  | _ => none

/-- A field of the date that a value is or denotes. -/
def onDate (field : Date → Int) (v : Value) : Option Value :=
  (timestampOf? v).map fun t => .int (Int64.ofInt (field t.date))

/-- The value of a function for a first argument and further ones, at a moment. -/
def value? (now : Timestamp) (f : Function) (args : List Value) : Option Value :=
  match f, args with
  | .now, _ => some (.timestamp now)
  | _, [] => none
  | .upper, v :: _ => onText Text.toUpper v
  | .lower, v :: _ => onText Text.toLower v
  | .trim, v :: _ => onText Text.trim v
  | .length, v :: _ => size v
  | .string, v :: _ => some (.text v.display)
  | .abs, v :: _ => absolute v
  | .round, v :: rest => (decimals? rest.head?).bind fun decimals => rounded decimals v
  | .int, v :: _ => toInteger v
  | .float, v :: _ => toFloat v
  | .year, v :: _ => onDate (·.year) v
  | .month, v :: _ => onDate (·.month) v
  | .day, v :: _ => onDate (·.day) v

def call (now : Timestamp) (f : Function) (args : List Value) : Except Fault Value :=
  let (least, most) := f.arity
  if args.length < least || most < args.length then
    .error (.argumentCount f.name least most args.length)
  else if args.head?.any Value.isNull then .ok .null
  else
    match f.value? now args with
    | some v => .ok v
    | none => .error (.badArguments f.name args)

end Function

end RecordFlow.Query
