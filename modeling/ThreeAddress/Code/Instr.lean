import ThreeAddress.Opcode
import ThreeAddress.SourceLoc
import ThreeAddress.Value.Basic

/-!
# Instructions

A draft is an instruction before it has a place: its operation, type, operands, name and
predicate.  An instruction adds what it is given on insertion: a number in its function, the
index of that function, and a source location.
-/

namespace ThreeAddress

/-- What an instruction computes, without its place. -/
structure Draft where
  op : Opcode
  type : Ty := Ty.void
  operands : List Value := []
  /-- The display name of the result. -/
  name : String := ""
  /-- The predicate of a comparison. -/
  predicate : String := ""
deriving Repr

/-- A placed instruction. -/
structure Instr extends Draft where
  id : Nat := 0
  /-- The index of the function that holds the instruction. -/
  parent : Nat := 0
  loc : SourceLoc := {}
deriving Repr

namespace Instr

/-- The temporary with the number of an instruction. -/
def handle (i : Instr) : Value :=
  .temp i.id i.type i.parent

/-- The instruction computes a value: it ends no block and its type is not void. -/
def hasResult (i : Instr) : Bool :=
  !i.op.isTerminator && !i.type.isVoid

/-- The value an instruction computes, if it computes one. -/
def result? (i : Instr) : Option Value :=
  if i.hasResult then some i.handle else none

end Instr
end ThreeAddress
