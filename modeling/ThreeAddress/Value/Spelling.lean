import ThreeAddress.Binary64.Spelling
import ThreeAddress.Ty.Spelling
import ThreeAddress.Value.Basic

/-!
# Spelling of values

The text of a value on its own, without a function around it: temporaries are written by
their number, truth values as words, and the elements of an aggregate each with its type.
-/

namespace ThreeAddress
namespace Value

section Floats

/--
Seventeen significant digits, enough to tell any two numbers apart; exponents from -4 to 16
are written positionally and the others with at least two digits.
-/
def floatLayout : Decimal.Layout where
  digits := 17
  leastPositional := -4
  exponentWidth := 2

/-- The text shows by itself that it is no integer: a point, an exponent or a word. -/
def marksFloat (text : String) : Bool :=
  text.toList.any fun c => c == '.' || c == 'e' || c == 'E' || c == 'n'

/-- The text of a floating-point constant, a fraction added where it would read as an integer. -/
def floatText (x : Binary64) : String :=
  let text := x.significantText floatLayout
  if marksFloat text then text else text ++ ".0"

end Floats

/-- A temporary by its number. -/
def tempText (id : Nat) : String :=
  "%t" ++ id.repr

/-- An integer constant: truth values as words, everything else in decimal. -/
def intText (type : Ty) (n : Int) : String :=
  if type.isInt ∧ type.width = 1 then (if n = 0 then "false" else "true") else n.repr

/-- Elements in braces for a struct type, in brackets for any other. -/
def bracketed (type : Ty) (text : String) : String :=
  if type.kind = .struct then "\x7b" ++ text ++ "\x7d" else "[" ++ text ++ "]"

mutual

/-- The text of a value. -/
def spelling : Value → String
  | temp id _ _ => tempText id
  | int type n => intText type n
  | float _ x => floatText x
  | aggregate type elems => bracketed type (", ".intercalate (typedSpellings elems))
  | null _ => "null"
  | block label => "%" ++ label

/-- The texts of values, each after its type. -/
def typedSpellings : List Value → List String
  | [] => []
  | v :: vs => (v.type.spelling ++ " " ++ spelling v) :: typedSpellings vs

end

theorem typedSpellings_eq_map :
    ∀ vs : List Value, typedSpellings vs = vs.map fun v => v.type.spelling ++ " " ++ spelling v
  | [] => by simp [typedSpellings]
  | v :: vs => by simp [typedSpellings, typedSpellings_eq_map vs]

end Value
end ThreeAddress
