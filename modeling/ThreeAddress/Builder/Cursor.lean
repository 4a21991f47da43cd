import ThreeAddress.Code.Address

/-!
# Cursors

A builder's cursor says where the next instruction goes.  It has three parts, and a call may
set one of them and leave the others: the current function, in which instructions are looked
up, the current block, and the anchor in that block.
-/

namespace ThreeAddress

/-- Where the next instruction goes. -/
structure Cursor where
  /-- The current function. -/
  function : Option FunctionAddr := none
  /-- The current block. -/
  block : Option BlockAddr := none
  /-- The position in the current block in front of which the next instruction goes. -/
  anchor : Nat := 0
deriving DecidableEq, Repr, Inhabited

/-- The two ways of placing a cursor next to an instruction. -/
inductive Side where
  | before
  | after
deriving DecidableEq, Repr

/-- The two ways of placing a cursor in a block. -/
inductive Edge where
  | start
  | finish
deriving DecidableEq, Repr

/--
The anchor next to the instruction at a position.  After it is the position behind it; before
it is one position in front of it, so that the instruction that precedes it stays behind the
anchor.
-/
def Side.anchor (index : Nat) : Side → Nat
  | .before => index - 1
  | .after => index + 1

/-- The anchor at an end of a block with `size` instructions. -/
def Edge.anchor (size : Nat) : Edge → Nat
  | .start => 0
  | .finish => size

end ThreeAddress
