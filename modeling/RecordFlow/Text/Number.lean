import RecordFlow.Binary64.Decimal

/-!
# Numbers in text

How a whole text is read as a number: `readInt64?` takes a sign and digits that fit 64 bits,
`readBinary64?` any decimal, rounded to the nearest number, and the names of infinity and NaN.
`beginsLikeNumber` is the guard in front of both, which keeps words without a sign out.
-/

namespace RecordFlow.Text

/-- The text behind an optional sign, and whether the sign is a minus. -/
def takeSign : List Char → Bool × List Char
  | '-' :: rest => (true, rest)
  | '+' :: rest => (false, rest)
  | cs => (false, cs)

def readInt64? (cs : List Char) : Option Int64 :=
  let (negative, digits) := takeSign cs
  if digits.isEmpty || !digits.all Char.isDigit then none
  else
    let size : Int := Nat.ofDigitChars 10 digits 0
    let n := if negative then -size else size
    if -2 ^ 63 ≤ n && n < 2 ^ 63 then some (Int64.ofInt n) else none

/-- The exponent that ends a decimal; the empty text stands for zero. -/
def readExponent? : List Char → Option Int
  | [] => some 0
  | c :: rest =>
    if c = 'e' || c = 'E' then
      let (negative, digits) := takeSign rest
      if digits.isEmpty || !digits.all Char.isDigit then none
      else
        let size : Int := Nat.ofDigitChars 10 digits 0
        some (if negative then -size else size)
    else none

/-- The unsigned decimal that a text stands for: digits with an optional point among them, at least
one digit in all, and an optional exponent. -/
def readDecimal? (cs : List Char) : Option Decimal := do
  let whole := cs.takeWhile Char.isDigit
  let (fraction, rest) := match cs.dropWhile Char.isDigit with
    | '.' :: rest => (rest.takeWhile Char.isDigit, rest.dropWhile Char.isDigit)
    | rest => ([], rest)
  if whole.isEmpty && fraction.isEmpty then none
  else
    let exponent ← readExponent? rest
    some ⟨Nat.ofDigitChars 10 (whole ++ fraction) 0, exponent - fraction.length⟩

def readBinary64? (cs : List Char) : Option Binary64 :=
  let (negative, rest) := takeSign cs
  match readDecimal? rest with
  | some d => some (Binary64.ofDecimal negative d)
  | none =>
    let word := rest.map Char.toLower
    if word = ['i', 'n', 'f'] || word = ['i', 'n', 'f', 'i', 'n', 'i', 't', 'y'] then
      some (Binary64.infinity negative)
    else if word = ['n', 'a', 'n'] then some (Binary64.nan negative)
    else none

/-- The text begins with a digit, a sign or a point. -/
def beginsLikeNumber : List Char → Bool
  | [] => false
  | c :: _ => c.isDigit || c == '+' || c == '-' || c == '.'

end RecordFlow.Text
