import RecordFlow.Fault
import RecordFlow.Query.Token

/-!
# Fragments of filter expressions

An expression is cut at separators: the names of functions and aggregators, the operators, the
keywords and the brackets. `fragments` yields the separators and the text between them. A word is a
separator only where it does not touch another word character. `joinQuotes` then puts together the
fragments of each quoted literal that has been cut.
-/

namespace RecordFlow.Query

/-! ### Separators -/

/-- What an expression is cut at. -/
inductive Separator where
  /-- Words in upper case, with white space between them. -/
  | words (parts : List (List Char))
  /-- A sign that stands for itself. -/
  | sign (cs : List Char)

def Separator.ofSpelling (s : String) : Separator :=
  let cs := s.toList
  if cs.all fun c => c.isAlpha || c == ' ' then .words (cs.splitOn ' ') else .sign cs

/-- The spellings of the operators, the longer of two before its beginning. -/
def operatorSpellings : List String :=
  ["<>", ">=", "<=", ">", "<", "==", "!=", "=", "IS NOT", "IS", "NOT LIKE", "LIKE", "IN",
    "CONTAINS"]

/-- The words that have a place of their own in queries. -/
def keywords : List String :=
  ["AND", "OR", "NOT", "AS", "SELECT", "FROM", "WHERE", "LIMIT", "GROUP BY", "ORDER BY",
    "DISTINCT", "ASC", "DESC"]

/-- The signs that are no operators. -/
def punctuation : List String :=
  ["(", ")", "[", "]", ",", "*"]

/-- All separators, in the order in which they are tried. -/
def separators : List Separator :=
  (Function.sorted.map Function.name ++ aggregators ++ operatorSpellings ++ keywords ++
    punctuation).map Separator.ofSpelling

/-! ### Where a separator matches -/

/-- A character stands for a letter in upper case. The long s and the Kelvin sign are letters, too,
when case does not matter. -/
def standsFor (letter c : Char) : Bool :=
  c.toUpper == letter || (letter == 'S' && c.toNat == 0x17F) || (letter == 'K' && c.toNat == 0x212A)

def dropWord : List Char → List Char → Option (List Char)
  | [], cs => some cs
  | _ :: _, [] => none
  | letter :: word, c :: cs => if standsFor letter c then dropWord word cs else none

/-- The text behind words at its start, with white space between them. -/
def dropWords : List (List Char) → List Char → Option (List Char)
  | [], cs => some cs
  | [word], cs => dropWord word cs
  | word :: words, cs => do
    let rest ← dropWord word cs
    if rest.head?.any Text.isBlank then dropWords words (Text.trimStart rest) else none

/-- A word does not go on between two characters; the ends of the text are boundaries, too. -/
def isBoundary (before after : Option Char) : Bool :=
  before.any Text.isWordChar != after.any Text.isWordChar

/-- The length of a separator at the start of a text that stands behind a character. -/
def Separator.length? (before : Option Char) (cs : List Char) : Separator → Option Nat
  | .sign mark => if mark.isPrefixOf cs then some mark.length else none
  | .words parts => do
    let rest ← dropWords parts cs
    let count := cs.length - rest.length
    if isBoundary before cs.head? && isBoundary (cs.take count).getLast? rest.head? then some count
    else none

/-- The length of the first separator that matches at the start of a text. -/
def separatorLength? (before : Option Char) (cs : List Char) : Option Nat :=
  separators.findSome? (·.length? before cs)

/-! ### Cutting -/

/-- The separators of a text and the gaps between them, in turn, beginning and ending with a gap.
`gap` holds the characters of the current gap, the last one first. -/
def cut (before : Option Char) (gap : List Char) (cs : List Char) : List (List Char) :=
  match cs with
  | [] => [gap.reverse]
  | c :: rest =>
    match separatorLength? before (c :: rest) with
    | none => cut (some c) (c :: gap) rest
    | some count =>
      let separator := c :: rest.take (count - 1)
      gap.reverse :: separator :: cut separator.getLast? [] (rest.drop (count - 1))
termination_by cs.length
decreasing_by all_goals simp only [List.length_cons, List.length_drop]; omega

/-- The separators of a text and the gaps between them, in turn. -/
def fragments (cs : List Char) : List (List Char) :=
  cut none [] cs

/-- A quoted literal whose end has not been reached. -/
structure OpenQuote where
  mark : Char
  text : List Char

/-- The fragments with every quoted literal in one piece. A fragment that opens a quotation takes in
the following ones up to the first that ends with the same mark. -/
def joinQuotes : Option OpenQuote → List (List Char) → Except Fault (List (List Char))
  | none, [] => .ok []
  | some quote, [] =>
    .error (.unterminatedLiteral quote.mark (String.ofList (Text.trim quote.text)))
  | some quote, fragment :: rest =>
    let text := quote.text ++ fragment
    if (Text.trim fragment).getLast? == some quote.mark then
      (joinQuotes none rest).map (text :: ·)
    else joinQuotes (some { quote with text := text }) rest
  | none, fragment :: rest =>
    match Text.trim fragment with
    | [] => joinQuotes none rest
    | mark :: more =>
      if isQuote mark && more.getLast? != some mark then joinQuotes (some ⟨mark, fragment⟩) rest
      else (joinQuotes none rest).map (fragment :: ·)

end RecordFlow.Query
