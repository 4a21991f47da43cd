/-!
# Rounding a quotient of naturals

Decimal texts of binary numbers are exact up to one rounding: a quotient of two naturals is
taken to the nearest integer, a tie to the even neighbour.  The module also finds the power
of ten at which a positive quotient starts, again in exact arithmetic.
-/

namespace ThreeAddress
namespace Decimal

/-- The integer nearest to `num / den`; of two equally near ones, the even one. -/
def nearestEven (num den : Nat) : Nat :=
  let floor := num / den
  let twice := 2 * (num % den)
  if twice < den then floor
  else if den < twice then floor + 1
  else if floor % 2 = 0 then floor
  else floor + 1

/-- The number of decimal digits of a natural; zero has one digit. -/
def digitCount (n : Nat) : Nat :=
  (Nat.toDigits 10 n).length

/--
The exponent `e` with `10 ^ e ≤ num / den < 10 ^ (e + 1)`, for a positive quotient.  A
quotient of at least one has as many digits before the point as its integer part; a smaller
one needs as many tens to reach one as the integer part of `(den - 1) / num` has digits.
-/
def leadingExponent (num den : Nat) : Int :=
  if den ≤ num then (digitCount (num / den) : Int) - 1
  else -(digitCount ((den - 1) / num) : Int)

end Decimal
end ThreeAddress
