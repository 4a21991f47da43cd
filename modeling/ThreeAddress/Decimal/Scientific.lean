import ThreeAddress.Decimal.Rounding

/-!
# Decimals with a fixed number of significant digits

A positive quotient is rounded to a chosen number of significant digits, or to a chosen
number of places, and laid out as text.  Small exponents are written positionally and the
others with an explicit power of ten; zeros that end the digits are not written.
-/

namespace ThreeAddress
namespace Decimal

/-- A decimal `d₀.d₁d₂… · 10 ^ exponent`, its digits read as one natural. -/
structure Scientific where
  coefficient : Nat
  exponent : Int
deriving DecidableEq, Repr

/-- How decimals with significant digits are laid out. -/
structure Layout where
  /-- The number of significant digits. -/
  digits : Nat
  /-- The least exponent that is written positionally; the greatest is `digits - 1`. -/
  leastPositional : Int
  /-- The least number of digits of a written exponent. -/
  exponentWidth : Nat
deriving DecidableEq, Repr

/-- The text of a natural, filled up with zeros on the left. -/
def padded (width n : Nat) : List Char :=
  let digits := Nat.toDigits 10 n
  List.replicate (width - digits.length) '0' ++ digits

/-- Digits without the zeros at their end. -/
def dropTrailingZeros (digits : List Char) : List Char :=
  (digits.reverse.dropWhile (· == '0')).reverse

/-- A point and the digits after it, or nothing if no digit follows. -/
def fractionPart (digits : List Char) : List Char :=
  if digits.isEmpty then [] else '.' :: digits

namespace Scientific

/--
The positive quotient `num / den` with `digits` significant digits, nearest with ties to
even.  Rounding up to the next power of ten moves the exponent by one.
-/
def ofQuotient (digits num den : Nat) : Scientific :=
  let exponent := leadingExponent num den
  let shift : Int := (digits : Int) - 1 - exponent
  let coefficient :=
    nearestEven (num * Nat.pow 10 shift.toNat) (den * Nat.pow 10 (-shift).toNat)
  if coefficient < Nat.pow 10 digits then ⟨coefficient, exponent⟩
  else ⟨Nat.pow 10 (digits - 1), exponent + 1⟩

/-- The significant digits, the zeros at their end left out. -/
def digitList (d : Scientific) : List Char :=
  dropTrailingZeros (Nat.toDigits 10 d.coefficient)

/-- Positional layout: the point stands where the exponent puts it. -/
def positional (d : Scientific) : List Char :=
  let digits := d.digitList
  if d.exponent < 0 then
    '0' :: '.' :: (List.replicate (-d.exponent - 1).toNat '0' ++ digits)
  else
    let whole := d.exponent.toNat + 1
    digits.take whole ++ List.replicate (whole - digits.length) '0' ++
      fractionPart (digits.drop whole)

/-- Layout with one digit before the point and a signed power of ten. -/
def withExponent (width : Nat) (d : Scientific) : List Char :=
  let digits := d.digitList
  digits.take 1 ++ fractionPart (digits.drop 1) ++
    'e' :: (if d.exponent < 0 then '-' else '+') :: padded width d.exponent.natAbs

/-- The text of a decimal under a layout. -/
def render (layout : Layout) (d : Scientific) : List Char :=
  if layout.leastPositional ≤ d.exponent ∧ d.exponent < layout.digits then d.positional
  else d.withExponent layout.exponentWidth

end Scientific

/-- The quotient `num / den` with exactly `places` digits after the point. -/
def fixedPoint (places num den : Nat) : List Char :=
  let unit := Nat.pow 10 places
  let scaled := nearestEven (num * unit) den
  Nat.toDigits 10 (scaled / unit) ++
    fractionPart (if places = 0 then [] else padded places (scaled % unit))

end Decimal
end ThreeAddress
