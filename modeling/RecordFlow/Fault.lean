import RecordFlow.Value.Text

/-!
# What can go wrong

A `Fault` is the cause of a failure. Its `kind` is what callers branch on, and its `message` is the
text that they show.
-/

namespace RecordFlow

/-- The cause of a failure. -/
inductive Fault where
  | unknownOperator (spelling : String)
  | emptyClause
  | emptyDisjunction
  | notInSchema (name : String)
  | notInRelation (name : String)
  | attributeExists (name : String)
  | noGroupingColumn
  | argumentCount (function : String) (least most count : Nat)
  | badArguments (function : String) (arguments : List Value)
  | emptyExpression
  /-- A token behind a complete expression. -/
  | trailingToken (token : String) (position : Nat)
  | unexpectedEnd
  | unexpectedToken (token : String)
  /-- A bracket closed by something else. -/
  | unclosedBracket (expected opening found : String)
  | nestedTooDeep (limit : Nat)
  | badInteger (token : String)
  | badFloat (token : String)
  /-- An aggregator where single records are looked at. -/
  | aggregatorInFilter (name : String)
  | unknownFunction (name : String)
  | missingArguments (function found : String)
  | emptyParentheses
  | unterminatedLiteral (quote : Char) (start : String)
  /-- A move to a storage class that nothing can be moved to. -/
  | unreachableClass (current target : String)
  /-- A sampling fraction outside zero to one. -/
  | sampleFraction (fraction : Binary64)
  /-- A position past the end of a stream. -/
  | positionInStream (position count : Nat)
  /-- A position past the end of a spill store. -/
  | positionInStore (position count : Nat)
  | storeDisposed
  | spillFileMissing
  | undecodableRecord (position : Nat)
  | zeroBuffer
  | missingDirectory (path : String)
  /-- A reduction of no values. -/
  | emptySequence (reduction name : String)
  /-- A value that a reduction cannot count with. -/
  | notNumeric (reduction name kind : String)
  /-- A spread of fewer than two values. -/
  | tooFewValues (name : String) (count : Nat)
  /-- A format that no codec is registered for. -/
  | noCodec (format : String)
  /-- A payload without its first line. -/
  | noSchemaLine
  | undecodableSchema
  | undecodableRow (position : Nat)
  | notAnObject (found : Json)
  | invalidJson
  /-- A failure of whatever produces the records. -/
  | producer (text : String)

instance : Inhabited Fault := ⟨.invalidJson⟩

/-- The kinds of failure that callers tell apart. -/
inductive Fault.Kind where
  | invalidArgument
  | token
  | missingDependency
  | json
  | other
deriving DecidableEq, Repr

def Fault.Kind.name : Fault.Kind → String
  | .invalidArgument => "invalid argument"
  | .token => "token error"
  | .missingDependency => "missing dependency"
  | .json => "json"
  | .other => "other"

namespace Fault

def kind : Fault → Kind
  | .unterminatedLiteral .. => .token
  | .noCodec .. => .missingDependency
  | .invalidJson => .json
  | .spillFileMissing | .undecodableRecord .. | .zeroBuffer | .missingDirectory ..
  | .undecodableSchema | .undecodableRow .. | .notAnObject .. | .producer .. => .other
  | _ => .invalidArgument

def argumentRange (least most : Nat) : String :=
  if least = most then toString least else toString least ++ ".." ++ toString most

/-- What happened, without the kind. -/
def detail : Fault → String
  | .unknownOperator spelling => s!"unknown operator '{spelling}'"
  | .emptyClause => "a DNF clause needs at least one condition"
  | .emptyDisjunction => "a DNF expression needs at least one clause"
  | .notInSchema name => s!"attribute '{name}' is not in the schema"
  | .notInRelation name => s!"attribute '{name}' is not in the relation"
  | .attributeExists name => s!"attribute '{name}' already exists"
  | .noGroupingColumn => "group_by needs at least one column"
  | .argumentCount function least most count =>
    s!"{function} takes {argumentRange least most} argument(s), got {count}"
  | .badArguments function arguments =>
    s!"invalid argument(s) to {function}: " ++
      "[" ++ ", ".intercalate (Value.elementDebugTexts arguments) ++ "]"
  | .emptyExpression => "empty expression"
  | .trailingToken token position => s!"unexpected {token} at token {position}"
  | .unexpectedEnd => "unexpected end of expression"
  | .unexpectedToken token => s!"unexpected {token}"
  | .unclosedBracket expected opening found =>
    s!"expected '{expected}' to close '{opening}', found {found}"
  | .nestedTooDeep limit => s!"expression nested deeper than {limit} levels"
  | .badInteger token => s!"bad integer {token}"
  | .badFloat token => s!"bad float {token}"
  | .aggregatorInFilter name => s!"aggregator {name} cannot be used in a row filter"
  | .unknownFunction name => s!"unknown function {name}"
  | .missingArguments function found => s!"expected '(' after {function}, found {found}"
  | .emptyParentheses => "empty parentheses"
  | .unterminatedLiteral quote start => s!"unterminated {quote} literal starting at '{start}'"
  | .unreachableClass current target => s!"cannot persist a {current} stream to {target}"
  | .sampleFraction fraction =>
    "sample fraction must be within [0, 1], got " ++
      String.ofList (fraction.text plainNumberLayout)
  | .positionInStream position count =>
    s!"position {position} out of range for stream of {count} records"
  | .positionInStore position count =>
    s!"position {position} out of range for spill store of {count} records"
  | .storeDisposed => "spill store \"<path>\" has been disposed"
  | .spillFileMissing => "failed to open spill file: \"<path>\""
  | .undecodableRecord position => s!"failed to decode spilled record {position}"
  | .zeroBuffer => "spill buffer size must be non-zero"
  | .missingDirectory path => "spill directory does not exist: " ++ quotedText path
  | .emptySequence reduction name => s!"{reduction} of '{name}' over an empty sequence"
  | .notNumeric reduction name kind =>
    s!"{reduction} of '{name}' needs numeric values, found {kind}"
  | .tooFewValues name count =>
    s!"variance of '{name}' needs at least two values, found {count}"
  | .noCodec format => s!"no codec registered for format '{format}'"
  | .noSchemaLine => "jsonl payload has no schema line"
  | .undecodableSchema => "failed to decode schema"
  | .undecodableRow position => s!"failed to decode row {position}"
  | .notAnObject found => "expected a JSON object for a record, found " ++ found.text
  | .invalidJson => "invalid JSON"
  | .producer text => text

/-- The message of a fault. The kinds that callers tell apart are named in front. -/
def message (f : Fault) : String :=
  match f.kind with
  | .json | .other => f.detail
  | kind => kind.name ++ ": " ++ f.detail

end Fault

end RecordFlow
