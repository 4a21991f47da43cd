import ThreeAddress.Binary64.Basic
import ThreeAddress.Decimal.Scientific

/-!
# Texts of binary floating-point numbers

Two ways of writing a number, both exact up to one rounding of its exact value: with a
number of significant digits under a layout, and with a fixed number of places.  Infinities
and NaNs are written as words; every text carries the sign bit, that of a zero or of a NaN
included.
-/

namespace ThreeAddress
namespace Binary64

/-- A minus sign if the sign bit is set. -/
def signText (x : Binary64) : List Char :=
  if x.isNegative then ['-'] else []

/-- The text of the absolute value: a word if it is not finite, else what `finite` writes. -/
def magnitudeText (finite : Binary64 → List Char) (x : Binary64) : List Char :=
  if x.isNaN then ['n', 'a', 'n']
  else if x.isFinite then finite x
  else ['i', 'n', 'f']

/-- The number with significant digits, laid out as given; a zero is the digit zero. -/
def significantText (layout : Decimal.Layout) (x : Binary64) : String :=
  String.ofList (x.signText ++ x.magnitudeText fun y =>
    if y.isZero then ['0']
    else (Decimal.Scientific.ofQuotient layout.digits y.numerator y.denominator).render layout)

/-- The number with a fixed number of digits after the point. -/
def fixedText (places : Nat) (x : Binary64) : String :=
  String.ofList (x.signText ++ x.magnitudeText fun y =>
    Decimal.fixedPoint places y.numerator y.denominator)

end Binary64
end ThreeAddress
