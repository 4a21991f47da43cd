import ThreeAddress.Code.Instr

/-!
# Blocks

A block is a labelled sequence of instructions.  The instruction that ends it is kept apart
from the sequence, so positions in a block never count it.
-/

namespace ThreeAddress

/-- A labelled sequence of instructions. -/
structure Block where
  label : String
  /-- The index of the function that holds the block. -/
  parent : Nat := 0
  instrs : List Instr := []
  terminator : Option Instr := none
deriving Repr, Inhabited

namespace Block

/-- The number of instructions, the terminator not counted. -/
def size (b : Block) : Nat := b.instrs.length

/-- The block has been ended. -/
def isClosed (b : Block) : Bool := b.terminator.isSome

/-- The position of the first instruction with a number; the terminator has no position. -/
def indexOf? (b : Block) (id : Nat) : Option Nat :=
  b.instrs.findIdx? (·.id == id)

/-- Put an instruction at a position, in front of what was there. -/
def insert (b : Block) (position : Nat) (i : Instr) : Block :=
  { b with instrs := b.instrs.take position ++ i :: b.instrs.drop position }

/-- End the block. -/
def close (b : Block) (i : Instr) : Block :=
  { b with terminator := some i }

/-- Remove the instruction at a position. -/
def erase (b : Block) (position : Nat) : Block :=
  { b with instrs := b.instrs.eraseIdx position }

/-- Remove the terminator. -/
def reopen (b : Block) : Block :=
  { b with terminator := none }

end Block
end ThreeAddress
