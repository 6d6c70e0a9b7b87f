import RecordFlow.Binary64.Rounding

/-!
# Decimal forms of binary64 numbers

`ofDecimal` rounds a decimal to the nearest number. `shortest` goes the other way: of the decimals
that round to a given number it takes one with the fewest digits, and of those the nearest.
A `DecimalLayout` says how such a decimal is written, and `text` writes it.
-/

namespace RecordFlow

/-- The decimal number `digits * 10 ^ exponent`. -/
structure Decimal where
  digits : Nat
  exponent : Int
deriving DecidableEq, Repr

/-- The neighbour taken when two decimals are equally near. -/
inductive DecimalTie where
  /-- The larger one. -/
  | up
  /-- The one whose last digit is even. -/
  | even
deriving DecidableEq, Repr

namespace Binary64

/-! ### From decimals -/

/-- The number nearest to a decimal. Beyond `10 ^ 400` everything is infinite, and below
`10 ^ (-400)` everything is zero, so exponents past these need no exact power. -/
def ofDecimal (negative : Bool) (d : Decimal) : Binary64 :=
  if d.digits = 0 then ofParts negative 0
  else if 400 < d.exponent then infinity negative
  else if d.exponent + (Nat.toDigits 10 d.digits).length < -400 then ofParts negative 0
  else if 0 ≤ d.exponent then
    ofUnits negative (d.digits * 10 ^ d.exponent.toNat * unitsPerOne) 1
  else ofUnits negative (d.digits * unitsPerOne) (10 ^ (-d.exponent).toNat)

/-! ### Shortest decimals -/

/-- The decimals that round to one magnitude: those between `low / scale` and `high / scale`, the
ends included when `closed`. The number itself is `value / scale`. -/
structure RoundingInterval where
  low : Nat
  value : Nat
  high : Nat
  scale : Nat
  closed : Bool

/-- The interval between the midpoints to the two neighbouring magnitudes. -/
def roundingInterval (magnitude : Nat) : RoundingInterval where
  low := unitsOfMagnitude (magnitude - 1) + unitsOfMagnitude magnitude
  value := 2 * unitsOfMagnitude magnitude
  high := unitsOfMagnitude magnitude + unitsOfMagnitude (magnitude + 1)
  scale := 2 * unitsPerOne
  closed := magnitude % 2 == 0

/-- `c * step` lies in the interval, every number being counted in the interval's scale. -/
def RoundingInterval.holds (i : RoundingInterval) (multiplier step c : Nat) : Bool :=
  let point := c * step
  let low := i.low * multiplier
  let high := i.high * multiplier
  if i.closed then low ≤ point && point ≤ high else low < point && point < high

/-- The multiple of `10 ^ exponent` in the interval that is nearest to the number, if there is
one. Only the two multiples around the number need a look. -/
def RoundingInterval.onGrid? (i : RoundingInterval) (tie : DecimalTie) (exponent : Int) :
    Option Nat :=
  let multiplier := 10 ^ (-exponent).toNat
  let step := 10 ^ exponent.toNat * i.scale
  let value := i.value * multiplier
  let below := value / step
  let twice := 2 * (value % step)
  match i.holds multiplier step below, i.holds multiplier step (below + 1) with
  | true, true =>
    let down : Bool := match tie with
      | .up => twice < step
      | .even => twice < step || (twice == step && below % 2 == 0)
    some (if down then below else below + 1)
  | true, false => some below
  | false, true => some (below + 1)
  | false, false => none

/-- The first grid, from `exponent` downwards, that has a point in the interval. -/
def RoundingInterval.search (i : RoundingInterval) (tie : DecimalTie) :
    Nat → Int → Decimal
  | 0, exponent => ⟨i.value * 10 ^ (-exponent).toNat / (10 ^ exponent.toNat * i.scale), exponent⟩
  | fuel + 1, exponent =>
    match i.onGrid? tie exponent with
    | some c => ⟨c, exponent⟩
    | none => i.search tie fuel (exponent - 1)

/-- The shortest decimal that rounds to a positive finite magnitude. The search begins on a grid
coarser than the number itself and ends at seventeen digits, which always suffice. -/
def shortest (tie : DecimalTie) (magnitude : Nat) : Decimal :=
  let exponent := ((unitsOfMagnitude magnitude).log2 - 1073 : Int) * 30103 / 100000 + 1
  (roundingInterval magnitude).search tie 20 exponent

/-! ### Text -/

/-- How decimals are written. -/
structure DecimalLayout where
  /-- The exponents of the leading digit that are written without an exponent part. -/
  positional : Int → Bool
  /-- Whole numbers end in `.0`. -/
  wholeMark : Bool
  /-- What stands before the digits of a positive exponent. -/
  exponentPlus : List Char
  tie : DecimalTie

/-- The digits with the point and the zeros that their exponent asks for. -/
def positionalText (wholeMark : Bool) (digits : List Char) (exponent : Int) : List Char :=
  if 0 ≤ exponent then
    digits ++ List.replicate exponent.toNat '0' ++ (if wholeMark then ['.', '0'] else [])
  else
    let fraction := (-exponent).toNat
    if fraction < digits.length then
      digits.take (digits.length - fraction) ++ '.' :: digits.drop (digits.length - fraction)
    else '0' :: '.' :: (List.replicate (fraction - digits.length) '0' ++ digits)

/-- The digits with one of them before the point, and the exponent of that digit. -/
def scientificText (plus : List Char) (digits : List Char) (leading : Int) : List Char :=
  let fraction := digits.drop 1
  digits.take 1 ++ (if fraction.isEmpty then [] else '.' :: fraction) ++ 'e' ::
    (if leading < 0 then ['-'] else plus) ++ Nat.toDigits 10 leading.natAbs

/-- The text of a number: its shortest decimal in a layout, `inf` and `NaN` in words. -/
def text (layout : DecimalLayout) (x : Binary64) : List Char :=
  if x.isNaN then ['N', 'a', 'N']
  else
    let sign := if x.negative then ['-'] else []
    if x.isInfinite then sign ++ ['i', 'n', 'f']
    else if x.isZero then sign ++ positionalText layout.wholeMark ['0'] 0
    else
      let d := shortest layout.tie x.magnitude
      let digits := Nat.toDigits 10 d.digits
      let leading := d.exponent + digits.length - 1
      sign ++
        if layout.positional leading then positionalText layout.wholeMark digits d.exponent
        else scientificText layout.exponentPlus digits leading

end Binary64

end RecordFlow
