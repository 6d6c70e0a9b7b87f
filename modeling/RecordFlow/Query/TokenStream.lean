import RecordFlow.Query.Fragment

/-!
# Token streams

`tokenize` turns the text of an expression into tokens: fragments with quoted literals in one piece,
trimmed, the empty ones left out. A `TokenStream` is such a sequence with a place up to which it has
been read.
-/

namespace RecordFlow.Query

/-- Tokens, and how many of them have been read. -/
structure TokenStream where
  tokens : List Token
  cursor : Nat
deriving DecidableEq, Repr

def tokenize (s : String) : Except Fault (List Token) :=
  (joinQuotes none (fragments s.toList)).map fun pieces =>
    ((pieces.map Text.trim).filter (!·.isEmpty)).map fun cs =>
      ⟨String.ofList cs, TokenKind.ofChars cs⟩

namespace TokenStream

/-- The stream of a text, at its start. -/
def ofText (s : String) : Except Fault TokenStream :=
  (tokenize s).map (⟨·, 0⟩)

/-- The tokens that have not been read. -/
def rest (s : TokenStream) : List Token :=
  s.tokens.drop s.cursor

/-- A token ahead, without reading it; the next one is number zero. -/
def peek? (s : TokenStream) (ahead : Nat) : Option Token :=
  s.tokens[s.cursor + ahead]?

/-- Some token has not been read. -/
def hasNext (s : TokenStream) : Bool :=
  s.cursor < s.tokens.length

/-- The next token and the stream behind it. At the end the stream stays where it is. -/
def next (s : TokenStream) : Option Token × TokenStream :=
  match s.peek? 0 with
  | some t => (some t, { s with cursor := s.cursor + 1 })
  | none => (none, s)

def reset (s : TokenStream) : TokenStream :=
  { s with cursor := 0 }

/-- The stream with only these tokens, its last ones, still to be read. -/
def atRest (s : TokenStream) (rest : List Token) : TokenStream :=
  { s with cursor := s.tokens.length - rest.length }

end TokenStream

end RecordFlow.Query
