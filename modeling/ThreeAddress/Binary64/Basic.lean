/-!
# Binary floating-point numbers of 64 bits

A number is its bit pattern: a sign bit, eleven exponent bits and fifty-two fraction bits.
The fields are read off by division, and a finite number is the exact quotient
`numerator / denominator` of two naturals under its sign.  Comparison follows the arithmetic
standard: the two zeros are equal, and a pattern that is not a number equals nothing.
-/

namespace ThreeAddress

/-- A bit pattern of 64 bits, read as a binary floating-point number. -/
structure Binary64 where
  bits : UInt64
deriving DecidableEq, Repr, Inhabited

namespace Binary64

section Fields

/-- The weight of the sign bit, 2 to the 63rd. -/
def signWeight : Nat := 0x8000000000000000

/-- The weight of the bit in front of the trailing significand, 2 to the 52nd. -/
def leadingWeight : Nat := 0x10000000000000

/-- The sign bit is set. -/
def isNegative (x : Binary64) : Bool :=
  decide (signWeight ≤ x.bits.toNat)

/-- The eleven bits of the biased exponent. -/
def exponentField (x : Binary64) : Nat :=
  x.bits.toNat / leadingWeight % 2048

/-- The fifty-two bits of the trailing significand. -/
def fraction (x : Binary64) : Nat :=
  x.bits.toNat % leadingWeight

theorem exponentField_lt (x : Binary64) : x.exponentField < 2048 :=
  Nat.mod_lt _ (by decide)

theorem fraction_lt (x : Binary64) : x.fraction < leadingWeight :=
  Nat.mod_lt _ (by decide)

end Fields

section Classes

/-- Neither infinite nor a NaN. -/
def isFinite (x : Binary64) : Bool :=
  x.exponentField != 2047

/-- Not a number. -/
def isNaN (x : Binary64) : Bool :=
  x.exponentField == 2047 && x.fraction != 0

/-- One of the two zeros. -/
def isZero (x : Binary64) : Bool :=
  x.exponentField == 0 && x.fraction == 0

end Classes

section Magnitude

/-- The significand of a finite number; a positive exponent field adds the leading bit. -/
def significand (x : Binary64) : Nat :=
  if x.exponentField = 0 then x.fraction else leadingWeight + x.fraction

/-- The exponent field that scales the significand; subnormals share that of the normals. -/
def scaleField (x : Binary64) : Nat :=
  max 1 x.exponentField

/-- The numerator of the absolute value of a finite number. -/
def numerator (x : Binary64) : Nat :=
  x.significand * Nat.pow 2 (x.scaleField - 1075)

/-- The denominator of the absolute value of a finite number, a power of two. -/
def denominator (x : Binary64) : Nat :=
  Nat.pow 2 (1075 - x.scaleField)

theorem denominator_pos (x : Binary64) : 0 < x.denominator :=
  Nat.pow_pos (by decide)

/-- The integer that a finite number is, if it is one; both zeros are the integer zero. -/
def toInt? (x : Binary64) : Option Int :=
  if x.isFinite ∧ x.numerator % x.denominator = 0 then
    let magnitude : Int := (x.numerator / x.denominator : Nat)
    some (if x.isNegative then -magnitude else magnitude)
  else none

end Magnitude

section Comparison

/-- Equality of numbers: zeros are equal whatever their sign, and no NaN equals anything. -/
def equals (x y : Binary64) : Bool :=
  !x.isNaN && !y.isNaN && (x == y || x.isZero && y.isZero)

end Comparison

end Binary64
end ThreeAddress
