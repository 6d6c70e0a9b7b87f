import RecordFlow.Query.Like
import RecordFlow.Text.Letter
import RecordFlow.Timestamp.Text
import RecordFlow.Value.Order

/-!
# Comparison operators

The operators of filters, and `Operator.apply`, which decides `left OP right` for any two values.
A text that is compared with a timestamp is read as a timestamp first, where it can be.
-/

namespace RecordFlow.Query

/-- The operators of filters. -/
inductive Operator where
  | eq
  | notEq
  | lt
  | ltEq
  | gt
  | gtEq
  | isIn
  | contains
  | like
  | notLike
  | is
  | isNot
deriving DecidableEq, Repr

/-- White space between the words of an operator taken as one blank, letters in upper case. -/
def operatorSpelling (s : String) : String :=
  String.ofList (Text.asciiUpper (List.intercalate [' '] (Text.words s.toList)))

namespace Operator

def symbol : Operator → String
  | .eq => "=="
  | .notEq => "!="
  | .lt => "<"
  | .ltEq => "<="
  | .gt => ">"
  | .gtEq => ">="
  | .isIn => "IN"
  | .contains => "CONTAINS"
  | .like => "LIKE"
  | .notLike => "NOT LIKE"
  | .is => "IS"
  | .isNot => "IS NOT"

/-- The operator of a spelling. Case and the width of white space do not matter. -/
def ofText? (s : String) : Option Operator :=
  match operatorSpelling s with
  | "=" | "==" => some .eq
  | "!=" | "<>" => some .notEq
  | "<" => some .lt
  | "<=" => some .ltEq
  | ">" => some .gt
  | ">=" => some .gtEq
  | "IN" => some .isIn
  | "CONTAINS" => some .contains
  | "LIKE" => some .like
  | "NOT LIKE" => some .notLike
  | "IS" => some .is
  | "IS NOT" => some .isNot
  | _ => none

end Operator

/-- The two operands, a text beside a timestamp being read as one where it can be. -/
def alignTemporal (left right : Value) : Value × Value :=
  match left, right with
  | .timestamp _, .text s =>
    match Timestamp.parseIso? s with
    | some t => (left, .timestamp t)
    | none => (left, right)
  | .text s, .timestamp _ =>
    match Timestamp.parseIso? s with
    | some t => (.timestamp t, right)
    | none => (left, right)
  | _, _ => (left, right)

def occursIn (part : List Char) : List Char → Bool
  | [] => part.isEmpty
  | c :: rest => part.isPrefixOf (c :: rest) || occursIn part rest

/-- Membership: an element of a list, a part of a text, or an attribute of a record. -/
def memberOf (haystack needle : Value) : Bool :=
  match haystack, needle with
  | .list elements, _ => elements.any (·.equal needle)
  | .text s, .text part => occursIn part.toList s.toList
  | .struct fields, .text name => Attributes.has fields name
  | _, _ => false

/-- Both values are NULL, or both are the same truth value. -/
def identical (left right : Value) : Bool :=
  match left, right with
  | .null, .null => true
  | .bool a, .bool b => a == b
  | _, _ => false

/-- Both values are texts, and the match of the left with the right has this outcome. -/
def likeIs (outcome : Bool) (left right : Value) : Bool :=
  match left, right with
  | .text s, .text pattern => likeMatch s.toList pattern.toList == outcome
  | _, _ => false

namespace Operator

/-- The operator on operands that have been aligned. Operands that do not compare are in no
order. -/
def applyAligned (op : Operator) (left right : Value) : Bool :=
  match op with
  | .eq => left.equal right
  | .notEq => !left.equal right
  | .lt => (left.compare? right).any (· == .lt)
  | .ltEq => (left.compare? right).any (· != .gt)
  | .gt => (left.compare? right).any (· == .gt)
  | .gtEq => (left.compare? right).any (· != .lt)
  | .isIn => memberOf right left
  | .contains => memberOf left right
  | .like => likeIs true left right
  | .notLike => likeIs false left right
  | .is => identical left right
  | .isNot => !identical left right

/-- Decides `left OP right`. -/
def apply (op : Operator) (left right : Value) : Bool :=
  let (left, right) := alignTemporal left right
  op.applyAligned left right

end Operator

end RecordFlow.Query
