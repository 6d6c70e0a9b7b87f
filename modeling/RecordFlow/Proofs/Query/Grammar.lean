import RecordFlow.Query.ExpressionReader

/-!
# The grammar of filter expressions

The grammar as relations between tokens and what they derive. It knows nothing of the readers: there
is no order in which alternatives are tried, nothing is looked at ahead, and chains recur on the
left. The number in front bounds the depth: around no part of a derivation are there more groups,
calls and negations than it says.
-/

namespace RecordFlow.Query

/-! ### Single tokens -/

/-- A token that stands for a constant. -/
inductive Token.Denotes (t : Token) : Value → Prop where
  | integer {n : Int64} (hkind : t.kind = .integer)
      (hread : Text.readInt64? t.text.toList = some n) : Denotes t (.int n)
  | float {x : Binary64} (hkind : t.kind = .float)
      (hread : Text.readBinary64? t.text.toList = some x) : Denotes t (.float x)
  | literal (hkind : t.kind = .literal) : Denotes t (.text t.unquoted)
  | date {d : Timestamp} (hkind : t.kind = .date)
      (hread : Timestamp.parseIso? t.unquoted = some d) : Denotes t (.timestamp d)
  | yes (hkind : t.kind = .boolean) (hword : equalIgnoringCase t.text ['t', 'r', 'u', 'e']) :
      Denotes t (.bool true)
  | no (hkind : t.kind = .boolean) (hword : equalIgnoringCase t.text ['f', 'a', 'l', 's', 'e']) :
      Denotes t (.bool false)
  | null (hkind : t.kind = .null) : Denotes t .null

/-- The two kinds of brackets. -/
inductive Bracket where
  | round
  | square

namespace Bracket

/-- The text of the opening bracket. -/
def opening : Bracket → String
  | round => "("
  | square => "["

/-- The text of the closing bracket. -/
def closing : Bracket → String
  | round => ")"
  | square => "]"

/-- The token opens a bracket. -/
def Opens (b : Bracket) (t : Token) : Prop :=
  t.kind = .leftBracket ∧ t.text = b.opening

/-- The token closes a bracket. -/
def Closes (b : Bracket) (t : Token) : Prop :=
  t.kind = .rightBracket ∧ t.text = b.closing

end Bracket

/-! ### Derivations -/

mutual

/-- One conjunction, or a disjunction, an OR and a conjunction. -/
inductive Disjunction : Nat → List Token → Expression → Prop where
  | one {n l e} (h : Conjunction n l e) : Disjunction n l e
  | or {n l r t e f} (left : Disjunction n l e) (ht : t.kind = .or)
      (right : Conjunction n r f) : Disjunction n (l ++ t :: r) (.or e f)

/-- One negation, or a conjunction, an AND and a negation. -/
inductive Conjunction : Nat → List Token → Expression → Prop where
  | one {n l e} (h : Negation n l e) : Conjunction n l e
  | and {n l r t e f} (left : Conjunction n l e) (ht : t.kind = .and)
      (right : Negation n r f) : Conjunction n (l ++ t :: r) (.and e f)

/-- A comparison, or a NOT and a negation. -/
inductive Negation : Nat → List Token → Expression → Prop where
  | one {n l e} (h : Comparison n l e) : Negation n l e
  | not {n l t e} (ht : t.kind = .not) (h : Negation n l e) : Negation (n + 1) (t :: l) (.not e)

/-- One primary, or two primaries with an operator between them. -/
inductive Comparison : Nat → List Token → Expression → Prop where
  | one {n l e} (h : Primary n l e) : Comparison n l e
  | compare {n l r t op e f} (left : Primary n l e) (ht : t.kind = .operator)
      (hop : Operator.ofText? t.text = some op) (right : Primary n r f) :
      Comparison n (l ++ t :: r) (.compare op e f)

/-- A constant, a variable, a function with its arguments, or what stands in brackets: a single
expression in round ones is that expression, several are a list, and so is everything in square
ones. -/
inductive Primary : Nat → List Token → Expression → Prop where
  | constant {n t v} (h : t.Denotes v) : Primary n [t] (.constant v)
  | name {n t} (ht : t.kind = .variable) : Primary n [t] (.variable t.unquoted)
  | call {n l b t f es} (ht : t.kind = .function) (hf : Function.ofName? t.text = some f)
      (args : Bracketed b n l es) : Primary n (t :: l) (.call f es)
  | group {n l e} (h : Bracketed .round n l [e]) : Primary n l e
  | tuple {n l e e' es} (h : Bracketed .round n l (e :: e' :: es)) :
      Primary n l (.list (e :: e' :: es))
  | list {n l es} (h : Bracketed .square n l es) : Primary n l (.list es)

/-- Nothing, or expressions with commas between them, in brackets of one kind. -/
inductive Bracketed : Bracket → Nat → List Token → List Expression → Prop where
  | empty {b n o c} (ho : b.Opens o) (hc : b.Closes c) : Bracketed b n [o, c] []
  | items {b n l o c es} (ho : b.Opens o) (h : Items n l es) (hc : b.Closes c) :
      Bracketed b (n + 1) (o :: (l ++ [c])) es

/-- Expressions with commas between them, at least one. -/
inductive Items : Nat → List Token → List Expression → Prop where
  | one {n l e} (h : Disjunction n l e) : Items n l [e]
  | more {n l r t e es} (h : Disjunction n l e) (ht : t.kind = .comma) (later : Items n r es) :
      Items n (l ++ t :: r) (e :: es)

end

end RecordFlow.Query
