import RecordFlow.Binary64.Basic

/-!
# Rounding and arithmetic of binary64 numbers

An exact quotient of natural numbers, counted in units of `2 ^ (-1074)`, is rounded to the nearest
number by `ofUnits`; a quotient half-way between two numbers goes to the one with the even
significand. Sum, product, quotient and square root are the exact results rounded once, so each
of them is an instance of that one rule. Results outside the range are infinities.
-/

namespace RecordFlow

/-- The integer nearest to `num / den`; a half goes to the even neighbour. -/
def roundHalfEven (num den : Nat) : Nat :=
  let quotient := num / den
  let twice := 2 * (num % den)
  if twice < den || (twice == den && quotient % 2 == 0) then quotient else quotient + 1

/-- The largest natural number whose square is at most `n`. -/
def floorSqrt (n : Nat) : Nat :=
  if n = 0 then 0
  else
    let root := 2 * floorSqrt (n / 4)
    if (root + 1) * (root + 1) ≤ n then root + 1 else root
termination_by n

namespace Binary64

/-- The magnitude nearest to `num / den` units. Below `2 ^ 53` units every whole number has a
magnitude of its own; above, the significand keeps 53 bits. -/
def roundMagnitude (num den : Nat) : Nat :=
  let shift := (num / den).log2 - 52
  shift * 2 ^ 52 + roundHalfEven num (den * 2 ^ shift)

/-- The number nearest to `num / den` units of `2 ^ (-1074)`. -/
def ofUnits (negative : Bool) (num den : Nat) : Binary64 :=
  ofParts negative (min infinityMagnitude (roundMagnitude num den))

/-! ### Integers -/

def ofInt (n : Int) : Binary64 :=
  ofUnits (n < 0) (n.natAbs * unitsPerOne) 1

/-- The integer part of a finite number, its fraction dropped. -/
def truncate (x : Binary64) : Int :=
  Int.tdiv x.units unitsPerOne

/-- The nearest whole number, a half going away from zero; infinities and NaN stay. -/
def roundHalfAway (x : Binary64) : Binary64 :=
  if x.isFinite then
    ofUnits x.negative
      ((2 * x.units.natAbs + unitsPerOne) / (2 * unitsPerOne) * unitsPerOne) 1
  else x

/-! ### Arithmetic -/

/-- The sum. Zeros of unlike sign, and numbers that cancel, give the positive zero. -/
def add (x y : Binary64) : Binary64 :=
  if x.isNaN || y.isNaN then nan false
  else if x.isInfinite then
    if y.isInfinite && x.negative != y.negative then nan false else x
  else if y.isInfinite then y
  else
    let sum := x.units + y.units
    if sum = 0 then (if x.negative && y.negative then negativeZero else zero)
    else ofUnits (sum < 0) sum.natAbs 1

def sub (x y : Binary64) : Binary64 :=
  x.add y.neg

def mul (x y : Binary64) : Binary64 :=
  let negative := x.negative != y.negative
  if x.isNaN || y.isNaN then nan false
  else if x.isInfinite || y.isInfinite then
    if x.isZero || y.isZero then nan false else infinity negative
  else ofUnits negative (x.units.natAbs * y.units.natAbs) unitsPerOne

def div (x y : Binary64) : Binary64 :=
  let negative := x.negative != y.negative
  if x.isNaN || y.isNaN then nan false
  else if x.isInfinite then
    if y.isInfinite then nan false else infinity negative
  else if y.isInfinite then ofParts negative 0
  else if y.isZero then
    if x.isZero then nan false else infinity negative
  else ofUnits negative (x.units.natAbs * unitsPerOne) y.units.natAbs

/-- The square root; NaN below zero. A remainder of the integer root only has to break ties, so
half a step stands in for it. -/
def sqrt (x : Binary64) : Binary64 :=
  if x.isNaN || (x.negative && !x.isZero) then nan false
  else if x.isZero || x.isInfinite then x
  else
    let square := x.units.natAbs * unitsPerOne
    let root := floorSqrt square
    ofUnits false (2 * root + if root * root = square then 0 else 1) 2

/-- The sum of a list, taken from the left and begun at the negative zero. -/
def sum (xs : List Binary64) : Binary64 :=
  xs.foldl add negativeZero

/-! ### Powers of ten -/

def powerOfTen (exponent : Nat) : Binary64 :=
  ofUnits false (10 ^ exponent * unitsPerOne) 1

/-- `result * base ^ n` by repeated squaring, every product rounded. -/
def powerLoop (n : Nat) (result base : Binary64) : Binary64 :=
  let result := if n % 2 = 1 then result.mul base else result
  if n / 2 = 0 then result else powerLoop (n / 2) result (base.mul base)
termination_by n
decreasing_by omega

/-- Ten to an integer power by repeated squaring; a negative power is the reciprocal. -/
def scaleOfTen (exponent : Int) : Binary64 :=
  let power := powerLoop exponent.natAbs one (ofInt 10)
  if exponent < 0 then one.div power else power

end Binary64

end RecordFlow
