import RecordFlow.Query.Expression
import RecordFlow.Query.TokenStream

/-!
# Reading filter expressions

The grammar, from the loosest to the tightest binding:

* a disjunction is conjunctions joined by `OR`, and a conjunction is negations joined by `AND`, both
  grouped to the left;
* a negation is `NOT` before a negation, or a comparison;
* a comparison is a primary, or two of them with an operator between;
* a primary is a constant, a variable, a function with bracketed arguments, a parenthesized
  expression, or a list in parentheses or square brackets.

A reader takes the tokens still to be read and yields its result with the tokens it has left, also
when it fails. Brackets and `NOT` nest up to `maxLevels`: the reader of one level is built from the
reader of the level below, and the lowest level has none.
-/

namespace RecordFlow.Query

/-- How deep brackets, calls and `NOT` may be nested, the whole expression being the first level. -/
def maxLevels : Nat := 256

/-- A function from the tokens ahead to a result and the tokens left. -/
abbrev Reader (α : Type) := List Token → Except Fault α × List Token

namespace Reader

variable {α β : Type}

/-- Fails without taking a token. -/
def fail (fault : Fault) : Reader α :=
  fun ts => (.error fault, ts)

/-- Reads one thing and then another that depends on it. -/
def andThen (first : Reader α) (second : α → Reader β) : Reader β :=
  fun ts =>
    match first ts with
    | (.error fault, rest) => (.error fault, rest)
    | (.ok a, rest) => second a rest

def map (f : α → β) (r : Reader α) : Reader β :=
  r.andThen fun a ts => (.ok (f a), ts)

end Reader

open Reader

/-! ### Chains of operands -/

/-- Further operands, each behind a token of a kind, joined to what stands on their left. Every
operand takes a token, so their number is at most that of the tokens, which is the fuel. -/
def readFurther (kind : TokenKind) (join : Expression → Expression → Expression)
    (operand : Reader Expression) : Nat → Expression → Reader Expression
  | 0, left, ts => (.ok left, ts)
  | _ + 1, left, [] => (.ok left, [])
  | fuel + 1, left, t :: rest =>
    if t.kind = kind then
      operand.andThen (fun right => readFurther kind join operand fuel (join left right)) rest
    else (.ok left, t :: rest)

/-- Operands with tokens of a kind between them, joined from the left. -/
def readChain (kind : TokenKind) (join : Expression → Expression → Expression)
    (operand : Reader Expression) : Reader Expression :=
  operand.andThen fun left ts => readFurther kind join operand ts.length left ts

/-! ### Bracketed lists -/

def closing (opening : String) : String :=
  if opening = "[" then "]" else ")"

def readClose (opening : String) : Reader Unit
  | [] => (.error .unexpectedEnd, [])
  | t :: rest =>
    if t.kind = .rightBracket ∧ t.text = closing opening then (.ok (), rest)
    else (.error (.unclosedBracket (closing opening) opening t.display), rest)

/-- Expressions separated by commas, at least one, and the closing bracket. The fuel bounds their
number. -/
def readItemsFrom (item : Reader Expression) (opening : String) : Nat → Reader (List Expression)
  | 0 => fail .unexpectedEnd
  | fuel + 1 => item.andThen fun e ts =>
    match ts with
    | [] => (.error .unexpectedEnd, [])
    | t :: rest =>
      if t.kind = .comma then
        (readItemsFrom item opening fuel).map (e :: ·) rest
      else (readClose opening).map (fun _ => [e]) (t :: rest)

/-- Expressions separated by commas up to the closing bracket, perhaps none. -/
def readItems (item : Reader Expression) (opening : String) : Reader (List Expression) := fun ts =>
  if ts.head?.any (·.kind = .rightBracket) then (readClose opening).map (fun _ => []) ts
  else readItemsFrom item opening (ts.length + 1) ts

/-! ### Primaries -/

def readConstant (t : Token) : Option (Except Fault Value) :=
  match t.kind with
  | .integer =>
    match Text.readInt64? t.text.toList with
    | some n => some (.ok (.int n))
    | none => some (.error (.badInteger t.text))
  | .float =>
    match Text.readBinary64? t.text.toList with
    | some x => some (.ok (.float x))
    | none => some (.error (.badFloat t.text))
  | .literal => some (.ok (.text t.unquoted))
  | .date =>
    match Timestamp.parseIso? t.unquoted with
    | some d => some (.ok (.timestamp d))
    | none => some (.ok (.text t.unquoted))
  | .boolean => some (.ok (.bool (equalIgnoringCase t.text ['t', 'r', 'u', 'e'])))
  | .null => some (.ok .null)
  | _ => none

/-- The arguments of a function, and the call. -/
def readCall (item : Reader Expression) (name : String) : Reader Expression := fun ts =>
  match Function.ofName? name with
  | none => (.error (.unknownFunction name), ts)
  | some function =>
    match ts with
    | [] => (.error .unexpectedEnd, [])
    | t :: rest =>
      if t.kind = .leftBracket then (readItems item t.text).map (.call function) rest
      else (.error (.missingArguments function.name t.display), rest)

/-- What stands in brackets: a list in square ones; in round ones a single expression as it is, or
a list of several. -/
def readGroup (item : Reader Expression) (opening : String) : Reader Expression :=
  if opening = "[" then (readItems item opening).map .list
  else (readItems item opening).andThen fun items ts =>
    match items with
    | [] => (.error .emptyParentheses, ts)
    | [e] => (.ok e, ts)
    | items => (.ok (.list items), ts)

/-- A constant, a variable, a call or a group. -/
def readPrimary (item : Reader Expression) : Reader Expression
  | [] => (.error .unexpectedEnd, [])
  | t :: rest =>
    match readConstant t with
    | some (.ok v) => (.ok (.constant v), rest)
    | some (.error fault) => (.error fault, rest)
    | none =>
      match t.kind with
      | .variable => (.ok (.variable t.unquoted), rest)
      | .function => readCall item t.text rest
      | .leftBracket => readGroup item t.text rest
      | .aggregator =>
        (.error (.aggregatorInFilter (String.ofList (Text.asciiUpper t.text.toList))), rest)
      | _ => (.error (.unexpectedToken t.display), rest)

/-- A primary, or two of them with an operator between. -/
def readComparison (item : Reader Expression) : Reader Expression :=
  (readPrimary item).andThen fun left ts =>
    match ts with
    | [] => (.ok left, [])
    | t :: rest =>
      if t.kind = .operator then
        match Operator.ofText? t.text with
        | some operator => (readPrimary item).map (.compare operator left) rest
        | none => (.error (.unknownOperator t.text), rest)
      else (.ok left, t :: rest)

/-! ### Levels -/

/-- A whole expression, from the reader of negations on its level; there may be no level left. -/
def readDisjunction : Option (Reader Expression) → Reader Expression
  | none => fail (.nestedTooDeep maxLevels)
  | some negation => readChain .or .or (readChain .and .and negation)

/-- A negation, from the reader of negations one level below; there may be no level left. -/
def readNegationOver (below : Option (Reader Expression)) : Reader Expression
  | [] => (.error .unexpectedEnd, [])
  | t :: rest =>
    if t.kind = .not then
      match below with
      | none => (.error (.nestedTooDeep maxLevels), rest)
      | some negation => negation.map .not rest
    else readComparison (readDisjunction below) (t :: rest)

/-- A negation with a number of levels below its own. -/
def readNegation : Nat → Reader Expression
  | 0 => readNegationOver none
  | levels + 1 => readNegationOver (some (readNegation levels))

def readExpression : Reader Expression :=
  readDisjunction (some (readNegation (maxLevels - 1)))

/-! ### Whole expressions -/

namespace Expression

/-- The expression that the rest of a token stream stands for, and the stream behind what has been
taken. Nothing may follow the expression. -/
def ofTokens (s : TokenStream) : Except Fault Expression × TokenStream :=
  if s.rest.isEmpty then (.error .emptyExpression, s)
  else
    let (result, rest) := readExpression s.rest
    let s := s.atRest rest
    match result, rest with
    | .ok _, t :: _ => (.error (.trailingToken t.display s.cursor), s)
    | result, _ => (result, s)

def ofText (s : String) : Except Fault Expression := do
  (ofTokens (← TokenStream.ofText s)).1

end Expression

end RecordFlow.Query
