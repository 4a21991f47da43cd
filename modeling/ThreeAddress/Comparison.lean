/-!
# Comparison predicates

Comparisons are requested by a source symbol and recorded as a predicate: the relation,
after a letter for the reading of the operands.  Equality of integers has one reading.  A
floating-point comparison by an unknown symbol is recorded by the symbol itself.
-/

namespace ThreeAddress

/-- The relation a comparison tests. -/
inductive Relation where
  | gt
  | lt
  | eq
  | ne
  | ge
  | le
deriving DecidableEq, Repr

/-- Integers are compared with or without their sign. -/
inductive Signedness where
  | signed
  | unsigned
deriving DecidableEq, Repr

/-- A comparison with an operand that is not a number is false if ordered, true if not. -/
inductive Orderedness where
  | ordered
  | unordered
deriving DecidableEq, Repr

namespace Relation

/-- The relation behind a source symbol. -/
def ofSymbol? (symbol : String) : Option Relation :=
  match symbol with
  | ">" => some .gt
  | "<" => some .lt
  | "==" => some .eq
  | "!=" => some .ne
  | ">=" => some .ge
  | "<=" => some .le
  | _ => none

/-- The two letters of a relation. -/
def text : Relation → String
  | gt => "gt"
  | lt => "lt"
  | eq => "eq"
  | ne => "ne"
  | ge => "ge"
  | le => "le"

/-- The predicate of an integer comparison. -/
def intPredicate (sign : Signedness) : Relation → String
  | eq => "eq"
  | ne => "ne"
  | relation =>
      match sign with
      | .signed => "s" ++ relation.text
      | .unsigned => "u" ++ relation.text

/-- The predicate of a floating-point comparison. -/
def floatPredicate (order : Orderedness) (relation : Relation) : String :=
  match order with
  | .ordered => "o" ++ relation.text
  | .unordered => "u" ++ relation.text

end Relation

namespace Comparison

/-- The predicate of an integer comparison by a source symbol, if the symbol is known. -/
def intPredicate? (sign : Signedness) (symbol : String) : Option String :=
  (Relation.ofSymbol? symbol).map (Relation.intPredicate sign)

/-- The predicate of a floating-point comparison; an unknown symbol stands for itself. -/
def floatPredicate (order : Orderedness) (symbol : String) : String :=
  match Relation.ofSymbol? symbol with
  | some relation => relation.floatPredicate order
  | none => symbol

end Comparison
end ThreeAddress
