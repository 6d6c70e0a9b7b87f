/-!
# Binary64 numbers

A `Binary64` is the bit pattern of a floating-point number: one sign bit above a 63-bit
`magnitude`. Every finite number is a whole number of `units` of `2 ^ (-1074)`, so exact values
are integers and nothing here is rounded. `rank` orders all patterns that are not NaN, and
`compare?` is the comparison of two numbers, undefined when one of them is NaN.
-/

namespace RecordFlow

/-- Bit patterns and the digits of numerals are worked out with the power of the core library, also
in a module that imports a library with a power of its own. -/
@[default_instance high]
instance (priority := 1100) powNat {α : Type} [NatPow α] : Pow α Nat := instPowNat

/-- A binary64 floating-point number, given by its bit pattern. -/
structure Binary64 where
  /-- The sign bit, eleven exponent bits and fifty-two fraction bits, from the top. -/
  bits : UInt64
deriving DecidableEq, Repr

namespace Binary64

/-! ### Fields of the pattern -/

/-- The pattern without its sign bit; it grows with the absolute value. -/
def magnitude (x : Binary64) : Nat :=
  x.bits.toNat % 2 ^ 63

def negative (x : Binary64) : Bool :=
  2 ^ 63 ≤ x.bits.toNat

/-- The magnitude of the two infinities; larger magnitudes are NaN. -/
def infinityMagnitude : Nat :=
  2047 * 2 ^ 52

def ofParts (negative : Bool) (magnitude : Nat) : Binary64 :=
  ⟨UInt64.ofNat (if negative then 2 ^ 63 + magnitude else magnitude)⟩

/-- A number is what its sign and its magnitude make it. -/
theorem ofParts_negative_magnitude (x : Binary64) : ofParts x.negative x.magnitude = x := by
  have hlt := x.bits.toNat_lt
  have hbits : (if x.negative then 2 ^ 63 + x.magnitude else x.magnitude) = x.bits.toNat := by
    simp only [negative, magnitude, decide_eq_true_eq]
    split <;> omega
  rw [ofParts, hbits, UInt64.ofNat_toNat]

def isNaN (x : Binary64) : Bool :=
  infinityMagnitude < x.magnitude

def isInfinite (x : Binary64) : Bool :=
  x.magnitude == infinityMagnitude

def isFinite (x : Binary64) : Bool :=
  x.magnitude < infinityMagnitude

def isZero (x : Binary64) : Bool :=
  x.magnitude == 0

/-! ### Distinguished numbers -/

def zero : Binary64 := ofParts false 0

def negativeZero : Binary64 := ofParts true 0

def one : Binary64 := ofParts false (1023 * 2 ^ 52)

def infinity (negative : Bool) : Binary64 := ofParts negative infinityMagnitude

/-- The quiet NaN with an empty payload, of either sign. -/
def nan (negative : Bool) : Binary64 := ofParts negative (infinityMagnitude + 2 ^ 51)

/-! ### Exact values -/

/-- The number of units of `2 ^ (-1074)` in one. -/
def unitsPerOne : Nat := 2 ^ 1074

/-- The absolute value that a finite magnitude stands for, in units of `2 ^ (-1074)`. The lowest
exponent has no hidden bit; each further one doubles the weight of the significand. -/
def unitsOfMagnitude (magnitude : Nat) : Nat :=
  if magnitude < 2 ^ 52 then magnitude
  else (2 ^ 52 + magnitude % 2 ^ 52) * 2 ^ (magnitude / 2 ^ 52 - 1)

/-- The exact value of a finite number, in units of `2 ^ (-1074)`. -/
def units (x : Binary64) : Int :=
  if x.negative then -(unitsOfMagnitude x.magnitude : Int) else unitsOfMagnitude x.magnitude

/-! ### Order -/

/-- The place of a number in the order of all numbers; the two zeros share one place. -/
def rank (x : Binary64) : Int :=
  if x.negative then -(x.magnitude : Int) else x.magnitude

/-- The comparison of two numbers; NaN compares with nothing. -/
def compare? (x y : Binary64) : Option Ordering :=
  if x.isNaN || y.isNaN then none else some (compare x.rank y.rank)

/-- Equality of numbers: both zeros are equal, and NaN equals nothing. -/
def numericallyEqual (x y : Binary64) : Bool :=
  x.compare? y == some .eq

/-! ### Sign -/

def neg (x : Binary64) : Binary64 :=
  ofParts (!x.negative) x.magnitude

def abs (x : Binary64) : Binary64 :=
  ofParts false x.magnitude

end Binary64

end RecordFlow
