/-!
# Type descriptors

A descriptor records a kind, a bit width, a count and the contained types, in every
combination: the constructors of this module fill in what a kind needs, and everything else
is left at zero or empty.  Two descriptors are the same type when they agree in all four
fields at every level.
-/

namespace ThreeAddress

/-- What sort of type a descriptor describes. -/
inductive TyKind where
  | void
  | int
  | half
  | float
  | double
  | pointer
  | array
  | struct
  | label
deriving DecidableEq, Repr, Inhabited

/-- A type descriptor. -/
structure Ty where
  kind : TyKind
  /-- The width of an integer type in bits. -/
  width : Nat := 0
  /-- The number of elements of an array type. -/
  count : Nat := 0
  /-- The pointee, the element type or the members. -/
  elems : List Ty := []
deriving Repr

namespace Ty

section Constructors

/-- The type without values. -/
def void : Ty := ⟨.void, 0, 0, []⟩

/-- The integers of a bit width. -/
def int (width : Nat) : Ty := ⟨.int, width, 0, []⟩

/-- Floating-point numbers of 16 bits. -/
def half : Ty := ⟨.half, 0, 0, []⟩

/-- Floating-point numbers of 32 bits. -/
def float : Ty := ⟨.float, 0, 0, []⟩

/-- Floating-point numbers of 64 bits. -/
def double : Ty := ⟨.double, 0, 0, []⟩

/-- The type of block labels. -/
def label : Ty := ⟨.label, 0, 0, []⟩

/-- Pointers to a type. -/
def pointer (target : Ty) : Ty := ⟨.pointer, 0, 0, [target]⟩

/-- Arrays of `count` elements. -/
def array (elem : Ty) (count : Nat) : Ty := ⟨.array, 0, count, [elem]⟩

/-- Structs with the given members. -/
def struct (members : List Ty) : Ty := ⟨.struct, 0, 0, members⟩

/-- The truth values. -/
def bool : Ty := int 1

end Constructors

instance : Inhabited Ty := ⟨void⟩

section Equality

mutual

/-- Agreement in all four fields. -/
def beq : Ty → Ty → Bool
  | ⟨kind₁, width₁, count₁, elems₁⟩, ⟨kind₂, width₂, count₂, elems₂⟩ =>
      kind₁ == kind₂ && width₁ == width₂ && count₁ == count₂ && beqList elems₁ elems₂

/-- Agreement member by member, with equally many members. -/
def beqList : List Ty → List Ty → Bool
  | [], [] => true
  | t₁ :: ts₁, t₂ :: ts₂ => beq t₁ t₂ && beqList ts₁ ts₂
  | _, _ => false

end

instance : BEq Ty := ⟨beq⟩

mutual

theorem beq_iff_eq : ∀ a b : Ty, beq a b = true ↔ a = b
  | ⟨kind₁, width₁, count₁, elems₁⟩, ⟨kind₂, width₂, count₂, elems₂⟩ => by
      simp [beq, beqList_iff_eq elems₁ elems₂, and_assoc]

theorem beqList_iff_eq : ∀ as bs : List Ty, beqList as bs = true ↔ as = bs
  | [], [] => by simp [beqList]
  | [], _ :: _ => by simp [beqList]
  | _ :: _, [] => by simp [beqList]
  | a :: as, b :: bs => by simp [beqList, beq_iff_eq a b, beqList_iff_eq as bs]

end

instance : LawfulBEq Ty where
  eq_of_beq := fun {a b} h => (beq_iff_eq a b).mp h
  rfl := fun {a} => (beq_iff_eq a a).mpr rfl

instance : DecidableEq Ty := fun a b =>
  decidable_of_iff (beq a b = true) (beq_iff_eq a b)

end Equality

section Classification

/-- The kind is void. -/
def isVoid (t : Ty) : Bool := t.kind == .void

/-- The kind is an integer kind. -/
def isInt (t : Ty) : Bool := t.kind == .int

/-- The kind is one of the three floating-point kinds. -/
def isFloatingPoint (t : Ty) : Bool :=
  t.kind == .half || t.kind == .float || t.kind == .double

/-- The kind is a pointer kind. -/
def isPointer (t : Ty) : Bool := t.kind == .pointer

/-- The first contained type of a pointer; void for anything else. -/
def pointee (t : Ty) : Ty :=
  if t.isPointer then t.elems.headD void else void

@[simp]
theorem pointee_pointer (t : Ty) : (pointer t).pointee = t := rfl

end Classification

end Ty
end ThreeAddress
