import RecordFlow.Query.Function
import RecordFlow.Query.Operator

/-!
# Tokens of filter expressions

A token is a piece of an expression with its kind. `TokenKind.ofText` finds the kind of a piece from
the piece alone; the order in which it looks makes the tables of functions, operators and
aggregators win over names, and quotes over numbers.
-/

namespace RecordFlow.Query

/-- The kinds of tokens. -/
inductive TokenKind where
  | integer
  | float
  | literal
  | variable
  | boolean
  | date
  | null
  | leftBracket
  | rightBracket
  | comma
  | function
  | aggregator
  | as
  | unknown
  | everything
  | operator
  | and
  | or
  | not
deriving DecidableEq, Repr

/-- A piece of an expression with its kind. -/
structure Token where
  text : String
  kind : TokenKind
deriving DecidableEq, Repr

namespace TokenKind

def label : TokenKind → String
  | .integer => "INTEGER"
  | .float => "FLOAT"
  | .literal => "LITERAL"
  | .variable => "VARIABLE"
  | .boolean => "BOOLEAN"
  | .date => "DATE"
  | .null => "NULL"
  | .leftBracket => "LEFTPARENTHESES"
  | .rightBracket => "RIGHTPARENTHESES"
  | .comma => "COMMA"
  | .function => "FUNCTION"
  | .aggregator => "AGGREGATOR"
  | .as => "AS"
  | .unknown => "UNKNOWN"
  | .everything => "EVERYTHING"
  | .operator => "OPERATOR"
  | .and => "AND"
  | .or => "OR"
  | .not => "NOT"

def isConstant : TokenKind → Bool
  | .integer | .float | .literal | .boolean | .date | .null => true
  | _ => false

end TokenKind

/-! ### Quotes -/

def isQuote (c : Char) : Bool :=
  c == '"' || c == '\'' || c == '\x60'

/-- The text begins and ends with one mark, at two places. -/
def quotedWith (mark : Char) (cs : List Char) : Bool :=
  2 ≤ cs.length && cs.head? == some mark && cs.getLast? == some mark

/-- The text without the pair of quotation marks around it. -/
def stripQuotes (cs : List Char) : List Char :=
  match cs with
  | mark :: rest => if isQuote mark && quotedWith mark cs then rest.dropLast else cs
  | [] => []

namespace Token

/-- The text of a token without the pair of quotation marks around it. -/
def unquoted (t : Token) : String :=
  String.ofList (stripQuotes t.text.toList)

def display (t : Token) : String :=
  t.kind.label ++ "(" ++ t.text ++ ")"

end Token

/-! ### Classification -/

/-- The names of the aggregators, in order. -/
def aggregators : List String :=
  ["AVG", "COUNT", "FIRST", "LAST", "LIST", "MAX", "MIN", "SUM"]

def numberKind? (cs : List Char) : Option TokenKind :=
  if Text.beginsLikeNumber cs then
    if (Text.readInt64? cs).isSome then some .integer
    else if (Text.readBinary64? cs).isSome then some .float
    else none
  else none

/-- A letter or an underscore, followed by letters, numbers, hyphens, underscores and points. -/
def isIdentifier : List Char → Bool
  | [] => false
  | c :: rest =>
    (Text.isAlphabetic c || c == '_') &&
      rest.all fun c => Text.isAlphanumeric c || c == '-' || c == '_' || c == '.'

/-- The kind of a word that is no number, by its spelling in upper case. -/
def wordKind (upper : String) : TokenKind :=
  match upper with
  | "TRUE" | "FALSE" => .boolean
  | "NULL" | "NONE" => .null
  | "AND" => .and
  | "OR" => .or
  | "NOT" => .not
  | "AS" => .as
  | _ => .variable

def quotedKind (cs : List Char) : TokenKind :=
  if (Timestamp.parseIsoChars? (stripQuotes cs)).isSome then .date else .literal

/-- The kind of a piece that is neither quoted nor in a table. -/
def plainKind (cs : List Char) : TokenKind :=
  match numberKind? cs with
  | some kind => kind
  | none =>
    match cs with
    | ['('] | ['['] => .leftBracket
    | [')'] | [']'] => .rightBracket
    | [','] => .comma
    | _ =>
      if isIdentifier cs then wordKind (String.ofList (Text.asciiUpper cs)) else .unknown

def TokenKind.ofChars (cs : List Char) : TokenKind :=
  let s := String.ofList cs
  if quotedWith '\x60' cs then .variable
  else if cs = ['*'] then .everything
  else if (Function.ofName? s).isSome then .function
  else if (Operator.ofText? s).isSome then .operator
  else if aggregators.contains (String.ofList (Text.asciiUpper cs)) then .aggregator
  else if quotedWith '"' cs || quotedWith '\'' cs then quotedKind cs
  else plainKind cs

def TokenKind.ofText (s : String) : TokenKind :=
  .ofChars s.toList

end RecordFlow.Query
