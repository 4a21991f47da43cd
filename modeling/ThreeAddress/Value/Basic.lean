import ThreeAddress.Binary64.Basic
import ThreeAddress.Ty.Basic

/-!
# Values

Operands of instructions: temporaries, which name a numbered result of a function, constants
of every type, and labels of blocks.  The type written into a value is not checked against
its form.  Values are compared by form, type and payload; floating-point payloads compare as
numbers, so a constant that is not a number differs from itself.
-/

namespace ThreeAddress

/-- An operand. -/
inductive Value where
  /-- The numbered result `id` of the function with index `owner`. -/
  | temp (id : Nat) (type : Ty) (owner : Nat)
  | int (type : Ty) (payload : Int)
  | float (type : Ty) (payload : Binary64)
  | aggregate (type : Ty) (elems : List Value)
  | null (type : Ty)
  | block (label : String)
deriving Repr

namespace Value

/-- Temporary zero of function zero, of no type. -/
def unset : Value := temp 0 Ty.void 0

instance : Inhabited Value := ⟨unset⟩

/-- A truth value as an integer constant. -/
def bool (b : Bool) : Value := int Ty.bool (if b then 1 else 0)

/-- The type of a value; labels have a type of their own. -/
def type : Value → Ty
  | temp _ type _ => type
  | int type _ => type
  | float type _ => type
  | aggregate type _ => type
  | null type => type
  | block _ => Ty.label

/-- Everything is a constant but temporaries and labels. -/
def isConstant : Value → Bool
  | temp .. => false
  | block _ => false
  | _ => true

section Equality

mutual

/-- Equality of values, with floating-point payloads compared as numbers. -/
def equals : Value → Value → Bool
  | temp id₁ type₁ owner₁, temp id₂ type₂ owner₂ =>
      type₁ == type₂ && id₁ == id₂ && owner₁ == owner₂
  | int type₁ n₁, int type₂ n₂ => type₁ == type₂ && n₁ == n₂
  | float type₁ x₁, float type₂ x₂ => type₁ == type₂ && x₁.equals x₂
  | aggregate type₁ elems₁, aggregate type₂ elems₂ =>
      type₁ == type₂ && equalLists elems₁ elems₂
  | null type₁, null type₂ => type₁ == type₂
  | block label₁, block label₂ => label₁ == label₂
  | _, _ => false

/-- Equality element by element, with equally many elements. -/
def equalLists : List Value → List Value → Bool
  | [], [] => true
  | v₁ :: vs₁, v₂ :: vs₂ => equals v₁ v₂ && equalLists vs₁ vs₂
  | _, _ => false

end

instance : BEq Value := ⟨equals⟩

end Equality

end Value
end ThreeAddress
