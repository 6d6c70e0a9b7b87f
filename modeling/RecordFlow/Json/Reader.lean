import RecordFlow.Attributes
import RecordFlow.Json.Basic

/-!
# Reading JSON text

Reading has two steps. `Written.read?` checks the grammar and yields the document as it is written:
numbers by their digits, strings by their characters and lone halves of surrogate pairs.
`Written.value?` then gives the document its meaning, and can fail where the grammar could not: on
nesting beyond a depth, on a number out of range and on a half without its partner. A part that
nobody asks the meaning of is only held to the grammar.

A number with a fraction or an exponent is not rounded once from its decimal digits. Its leading
digits, as many as fit 64 bits, are rounded to a number, and that number is multiplied or divided
by a power of ten; `Numeral.number?` states the rule.
-/

namespace RecordFlow.Json

/-! ### Documents as they are written -/

/-- A number by its digits. -/
structure Numeral where
  negative : Bool
  whole : List Char
  fraction : Option (List Char)
  /-- The sign of the exponent, true for minus, and its digits. -/
  exponent : Option (Bool × List Char)

/-- A piece of a string. -/
inductive StringPart where
  /-- A character, as it is or by an escape. -/
  | char (c : Char)
  /-- An escape for one half of a surrogate pair. -/
  | half (code : Nat)

/-- A document as it is written. -/
inductive Written where
  | null
  | bool (b : Bool)
  | number (n : Numeral)
  | string (parts : List StringPart)
  | array (elements : List Written)
  | object (members : List (List StringPart × Written))

/-! ### Numbers -/

/-- Digits appended to a number while it stays below `2 ^ 64`, and the digits left over from the
first one that does not fit. -/
def absorb (significand : Nat) : List Char → Nat × List Char
  | [] => (significand, [])
  | c :: rest =>
    let next := significand * 10 + (c.toNat - '0'.toNat)
    if next < 2 ^ 64 then absorb next rest else (significand, c :: rest)

/-- A number times a power of ten, by one multiplication or division by a power up to `10 ^ 308`,
after divisions by `10 ^ 308` where the exponent is lower still. Results out of range are
refused. -/
def scaled? (x : Binary64) (exponent : Int) : Option Binary64 :=
  if exponent.natAbs ≤ 308 then
    if 0 ≤ exponent then
      let product := x.mul (Binary64.powerOfTen exponent.natAbs)
      if product.isInfinite then none else some product
    else some (x.div (Binary64.powerOfTen exponent.natAbs))
  else if x.isZero then some x
  else if 0 ≤ exponent then none
  else scaled? (x.div (Binary64.powerOfTen 308)) (exponent + 308)
termination_by exponent.natAbs
decreasing_by omega

namespace Numeral

/-- The written exponent. -/
def writtenExponent (n : Numeral) : Int :=
  match n.exponent with
  | none => 0
  | some (minus, digits) =>
    let size : Int := Nat.ofDigitChars 10 digits 0
    if minus then -size else size

/-- The digits that fit 64 bits, and the exponent that goes with them. Digits of the whole part
that do not fit raise the exponent; digits of the fraction that do not fit are dropped. -/
def significand (n : Numeral) : Nat × Int :=
  let (leading, dropped) := absorb 0 n.whole
  let fraction := n.fraction.getD []
  let (significand, left) := absorb leading fraction
  (significand, dropped.length - (fraction.length - left.length : Nat) + n.writtenExponent)

/-- The number that a numeral stands for. Integers of 64 bits are exact, except for the negative
zero; anything else is the significand scaled by its power of ten. -/
def number? (n : Numeral) : Option Json :=
  let (significand, exponent) := n.significand
  let whole := n.fraction.isNone && n.exponent.isNone
  if whole && exponent == 0 && !n.negative then some (.int significand)
  else if whole && exponent == 0 && 0 < significand && significand ≤ 2 ^ 63 then
    some (.int (-significand))
  else
    (scaled? (Binary64.ofInt significand) exponent).map fun x =>
      .float (if n.negative then x.neg else x)

end Numeral

/-! ### Strings -/

/-- The characters of a string: every half must be followed by its partner. -/
def joinHalves : List StringPart → Option (List Char)
  | [] => some []
  | .char c :: rest => (joinHalves rest).map (c :: ·)
  | .half high :: .half low :: rest =>
    if high < 0xDC00 && 0xDC00 ≤ low then
      (joinHalves rest).map
        (Char.ofNat (0x10000 + (high - 0xD800) * 0x400 + (low - 0xDC00)) :: ·)
    else none
  | .half _ :: _ => none

def hexDigit? (c : Char) : Option Nat :=
  if '0' ≤ c ∧ c ≤ '9' then some (c.toNat - '0'.toNat)
  else if 'a' ≤ c ∧ c ≤ 'f' then some (c.toNat - 'a'.toNat + 10)
  else if 'A' ≤ c ∧ c ≤ 'F' then some (c.toNat - 'A'.toNat + 10)
  else none

def hexCode? (a b c d : Char) : Option Nat := do
  let digits ← [a, b, c, d].mapM hexDigit?
  return digits.foldl (fun code digit => code * 0x10 + digit) 0

/-- What a code unit stands for. -/
def StringPart.ofCode (code : Nat) : StringPart :=
  if 0xD800 ≤ code && code < 0xE000 then .half code else .char (Char.ofNat code)

def shortEscape? (c : Char) : Option Char :=
  match c with
  | '"' => some '"'
  | '\\' => some '\\'
  | '/' => some '/'
  | 'b' => some '\x08'
  | 'f' => some '\x0c'
  | 'n' => some '\n'
  | 'r' => some '\r'
  | 't' => some '\t'
  | _ => none

/-- The parts of a string whose opening quote has been read, and the text after its closing
quote. -/
def readString : List Char → Option (List StringPart × List Char)
  | [] => none
  | '"' :: rest => some ([], rest)
  | '\\' :: 'u' :: a :: b :: c :: d :: rest => do
    let code ← hexCode? a b c d
    let (parts, rest) ← readString rest
    return (.ofCode code :: parts, rest)
  | '\\' :: e :: rest => do
    let c ← shortEscape? e
    let (parts, rest) ← readString rest
    return (.char c :: parts, rest)
  | c :: rest =>
    if c.toNat < 0x20 || c == '\\' then none
    else do
      let (parts, rest) ← readString rest
      return (.char c :: parts, rest)

/-! ### The grammar -/

def isGap (c : Char) : Bool :=
  c == ' ' || c == '\n' || c == '\t' || c == '\r'

def skipGap (cs : List Char) : List Char :=
  cs.dropWhile isGap

/-- The digits in front of a text, at least one, and the rest. -/
def readDigits (cs : List Char) : Option (List Char × List Char) :=
  let digits := cs.takeWhile Char.isDigit
  if digits.isEmpty then none else some (digits, cs.dropWhile Char.isDigit)

/-- The fraction in front of a text, if a point begins one. -/
def readFraction : List Char → Option (Option (List Char) × List Char)
  | '.' :: rest => (readDigits rest).map fun (digits, rest) => (some digits, rest)
  | cs => some (none, cs)

/-- The sign in front of the digits of an exponent, true for minus, and the text behind it. -/
def exponentSign : List Char → Bool × List Char
  | '+' :: rest => (false, rest)
  | '-' :: rest => (true, rest)
  | cs => (false, cs)

/-- The exponent in front of a text, if a letter begins one. -/
def readExponent : List Char → Option (Option (Bool × List Char) × List Char)
  | c :: rest =>
    if c = 'e' || c = 'E' then
      (readDigits (exponentSign rest).2).map fun (digits, left) =>
        (some ((exponentSign rest).1, digits), left)
    else some (none, c :: rest)
  | [] => some (none, [])

/-- The sign in front of a number, true for minus, and the text behind it. -/
def numeralSign : List Char → Bool × List Char
  | '-' :: rest => (true, rest)
  | cs => (false, cs)

/-- The whole part in front of a text: a lone zero, or digits that begin with another one. -/
def readWhole : List Char → Option (List Char × List Char)
  | '0' :: rest => some (['0'], rest)
  | cs => readDigits cs

def readNumeral (cs : List Char) : Option (Numeral × List Char) := do
  let (whole, rest) ← readWhole (numeralSign cs).2
  let (fraction, rest) ← readFraction rest
  let (exponent, rest) ← readExponent rest
  return (⟨(numeralSign cs).1, whole, fraction, exponent⟩, rest)

mutual

/-- The document in front of a text, and the rest; `fuel` bounds the number of nested calls. -/
def readValue : Nat → List Char → Option (Written × List Char)
  | 0, _ => none
  | fuel + 1, cs =>
    match skipGap cs with
    | 'n' :: 'u' :: 'l' :: 'l' :: rest => some (.null, rest)
    | 't' :: 'r' :: 'u' :: 'e' :: rest => some (.bool true, rest)
    | 'f' :: 'a' :: 'l' :: 's' :: 'e' :: rest => some (.bool false, rest)
    | '"' :: rest => (readString rest).map fun (parts, rest) => (.string parts, rest)
    | '[' :: rest =>
      match skipGap rest with
      | ']' :: rest => some (.array [], rest)
      | _ => (readElements fuel rest).map fun (elements, rest) => (.array elements, rest)
    | '{' :: rest =>
      match skipGap rest with
      | '}' :: rest => some (.object [], rest)
      | _ => (readMembers fuel rest).map fun (members, rest) => (.object members, rest)
    | cs => (readNumeral cs).map fun (n, rest) => (.number n, rest)

/-- The elements of an array up to its closing bracket, at least one. -/
def readElements : Nat → List Char → Option (List Written × List Char)
  | 0, _ => none
  | fuel + 1, cs => do
    let (element, rest) ← readValue fuel cs
    match skipGap rest with
    | ',' :: rest =>
      let (elements, rest) ← readElements fuel rest
      return (element :: elements, rest)
    | ']' :: rest => return ([element], rest)
    | _ => none

/-- The members of an object up to its closing brace, at least one. -/
def readMembers : Nat → List Char → Option (List (List StringPart × Written) × List Char)
  | 0, _ => none
  | fuel + 1, cs =>
    match skipGap cs with
    | '"' :: rest => do
      let (name, rest) ← readString rest
      match skipGap rest with
      | ':' :: rest =>
        let (member, rest) ← readValue fuel rest
        match skipGap rest with
        | ',' :: rest =>
          let (members, rest) ← readMembers fuel rest
          return ((name, member) :: members, rest)
        | '}' :: rest => return ([(name, member)], rest)
        | _ => none
      | _ => none
    | _ => none

end

/-- The document that a whole text is. Every nested call but one in two reads a character, so twice
the length of the text is fuel enough. -/
def Written.read? (cs : List Char) : Option Written := do
  let (document, rest) ← readValue (2 * cs.length + 2) cs
  if (skipGap rest).isEmpty then some document else none

/-! ### Meaning -/

namespace Written

mutual

/-- The value of a document with at most `depth` arrays and objects nested in one another. -/
def value? (depth : Nat) : Written → Option Json
  | .null => some .null
  | .bool b => some (.bool b)
  | .number n => n.number?
  | .string parts => (joinHalves parts).map fun cs => .string (String.ofList cs)
  | .array elements =>
    if depth = 0 then none else (elementValues? (depth - 1) elements).map .array
  | .object members =>
    if depth = 0 then none else (memberValues? (depth - 1) members).map .object

def elementValues? (depth : Nat) : List Written → Option (List Json)
  | [] => some []
  | w :: rest => do
    let j ← value? depth w
    return j :: (← elementValues? depth rest)

def memberValues? (depth : Nat) : List (List StringPart × Written) → Option (List (String × Json))
  | [] => some []
  | (name, w) :: rest => do
    let cs ← joinHalves name
    let j ← value? depth w
    return (String.ofList cs, j) :: (← memberValues? depth rest)

end

end Written

/-- How deep arrays and objects may be nested. -/
def maxDepth : Nat := 127

def read? (cs : List Char) : Option Json := do
  (← Written.read? cs).value? maxDepth

/-! ### Repeated members -/

mutual

/-- The value with the repeated members of every object merged: the first place and the last value
of a name count. -/
def merged : Json → Json
  | .array elements => .array (mergedElements elements)
  | .object members => .object (Attributes.ofPairs (mergedMembers members))
  | j => j

/-- The elements of an array, each merged. -/
def mergedElements : List Json → List Json
  | [] => []
  | j :: rest => merged j :: mergedElements rest

/-- The members of an object, each merged. -/
def mergedMembers : List (String × Json) → List (String × Json)
  | [] => []
  | (name, j) :: rest => (name, merged j) :: mergedMembers rest

end

end RecordFlow.Json
