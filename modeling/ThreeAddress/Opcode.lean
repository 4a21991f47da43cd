/-!
# Operation codes

Every instruction performs one of twenty-three operations, which fall into five classes.
The classes shape the codes: arithmetic and conversions are families of their own, so that
what holds of a family is said once.
-/

namespace ThreeAddress

/-- Arithmetic on two operands. -/
inductive BinaryOp where
  | add
  | sub
  | mul
  | udiv
  | sdiv
deriving DecidableEq, Repr

/-- Conversions between types. -/
inductive CastOp where
  | trunc
  | zext
  | sext
  | fptrunc
  | fpext
  | bitcast
  | fptoui
  | uitofp
  | fptosi
  | sitofp
deriving DecidableEq, Repr

/-- What an instruction does. -/
inductive Opcode where
  | binary (op : BinaryOp)
  | icmp
  | fcmp
  | cast (op : CastOp)
  | alloca
  | load
  | store
  /-- A jump to one block. -/
  | jump
  /-- A branch to one of two blocks. -/
  | branch
  | ret
deriving DecidableEq, Repr

/-- The five classes of operations. -/
inductive OpcodeClass where
  | binary
  | compare
  | cast
  | memory
  | terminator
deriving DecidableEq, Repr

/-- The word for an arithmetic operation. -/
def BinaryOp.mnemonic : BinaryOp → String
  | .add => "add"
  | .sub => "sub"
  | .mul => "mul"
  | .udiv => "udiv"
  | .sdiv => "sdiv"

/-- The word for a conversion. -/
def CastOp.mnemonic : CastOp → String
  | .trunc => "trunc"
  | .zext => "zext"
  | .sext => "sext"
  | .fptrunc => "fptrunc"
  | .fpext => "fpext"
  | .bitcast => "bitcast"
  | .fptoui => "fptoui"
  | .uitofp => "uitofp"
  | .fptosi => "fptosi"
  | .sitofp => "sitofp"

namespace Opcode

/-- All operations, in their order. -/
def all : List Opcode :=
  [.binary .add, .binary .sub, .binary .mul, .binary .udiv, .binary .sdiv,
    .icmp, .fcmp,
    .cast .trunc, .cast .zext, .cast .sext, .cast .fptrunc, .cast .fpext, .cast .bitcast,
    .cast .fptoui, .cast .uitofp, .cast .fptosi, .cast .sitofp,
    .alloca, .load, .store,
    .jump, .branch, .ret]

theorem mem_all : ∀ op : Opcode, op ∈ all
  | .binary op => by cases op <;> simp [all]
  | .cast op => by cases op <;> simp [all]
  | .icmp | .fcmp | .alloca | .load | .store | .jump | .branch | .ret => by simp [all]

/-- The number of numbers that operations are given by, 2 to the 32nd. -/
def numberRange : Int := 0x100000000

/--
The operation with a number.  Numbers have 32 bits, so a negative one stands for a large one;
most numbers name no operation.
-/
def ofNumber? (n : Int) : Option Opcode :=
  all[(n % numberRange).toNat]?

/-- The word an operation is written with; both kinds of branch share theirs. -/
def mnemonic : Opcode → String
  | binary op => op.mnemonic
  | icmp => "icmp"
  | fcmp => "fcmp"
  | cast op => op.mnemonic
  | alloca => "alloca"
  | load => "load"
  | store => "store"
  | jump => "br"
  | branch => "br"
  | ret => "ret"

/-- The word for the operation with a number, empty if there is none. -/
def numberText (n : Int) : String :=
  ((ofNumber? n).map mnemonic).getD ""

/-- The class of an operation. -/
def opcodeClass : Opcode → OpcodeClass
  | binary _ => .binary
  | icmp | fcmp => .compare
  | cast _ => .cast
  | alloca | load | store => .memory
  | jump | branch | ret => .terminator

/-- The operation ends a block. -/
def isTerminator (op : Opcode) : Bool :=
  op.opcodeClass == .terminator

end Opcode
end ThreeAddress
