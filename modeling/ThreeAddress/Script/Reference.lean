import ThreeAddress.Builder.World

/-!
# References

Steps of a script name what they work on: functions and blocks by name or by position, values
by description.  A reference is resolved against the modules of the moment and the registers;
one that names nothing tells what is missing, the first missing part from the outside in.
-/

namespace ThreeAddress
namespace Script

/-- The first thing that a reference names in vain. -/
inductive Missing where
  | builder
  | home
  | function
  | block
  | instruction
  | name
  | register (name : String)
deriving DecidableEq, Repr

/-- The outcome of resolving a reference. -/
abbrev Lookup := Except Missing

/-- Named values, the latest first. -/
abbrev Registers := List (String × Value)

/-- What references are resolved in. -/
structure Scope where
  modules : List Module
  /-- The module that is meant where none is named. -/
  home : Nat
  registers : Registers

section Values

/-- The description of a value. -/
inductive ValueExpr where
  | register (name : String)
  | literal (v : Value)
  | aggregate (type : Ty) (elems : List ValueExpr)
deriving Repr

mutual

/-- The value described, with registers as they are. -/
def ValueExpr.eval (registers : Registers) : ValueExpr → Lookup Value
  | .register name =>
      match registers.lookup name with
      | some v => .ok v
      | none => .error (.register name)
  | .literal v => .ok v
  | .aggregate type elems => do
      let vs ← evalValues registers elems
      return .aggregate type vs

/-- The values described, from left to right. -/
def evalValues (registers : Registers) : List ValueExpr → Lookup (List Value)
  | [] => .ok []
  | e :: es => do
      let v ← e.eval registers
      let vs ← evalValues registers es
      return v :: vs

end

end Values

section Code

/-- A name, or a position in an order. -/
inductive Pointer where
  | named (name : String)
  | numbered (position : Nat)
deriving DecidableEq, Repr

/-- A function by name or by position, in a module or in the usual one. -/
structure FunctionRef where
  moduleAt : Option Nat := none
  function : Pointer
deriving DecidableEq, Repr

/-- A block by label or by position, in a function. -/
structure BlockRef where
  function : FunctionRef
  block : Pointer
deriving DecidableEq, Repr

/-- The position pointed at, given the position of a name. -/
def Pointer.position? (find : String → Option Nat) : Pointer → Option Nat
  | named name => find name
  | numbered position => some position

namespace Scope

/-- The position of a module and the module. -/
def findModule (s : Scope) (moduleAt : Option Nat) : Lookup (Nat × Module) :=
  let position := moduleAt.getD s.home
  match s.modules[position]? with
  | some m => .ok (position, m)
  | none => .error .home

/-- The address of a function and the function. -/
def findFunction (s : Scope) (ref : FunctionRef) : Lookup (FunctionAddr × Function) := do
  let (moduleAt, m) ← s.findModule ref.moduleAt
  let found := do
    let position ← ref.function.position? m.findFunction?
    let f ← m.functions[position]?
    return (⟨moduleAt, position⟩, f)
  match found with
  | some result => .ok result
  | none => .error .function

/-- The address of a block, the function that holds it, and the block. -/
def findBlock (s : Scope) (ref : BlockRef) : Lookup (BlockAddr × Function × Block) := do
  let (a, f) ← s.findFunction ref.function
  let found := do
    let position ← ref.block.position? f.findBlock?
    let b ← f.blocks[position]?
    return (⟨a.moduleAt, a.functionAt, position⟩, f, b)
  match found with
  | some result => .ok result
  | none => .error .block

/-- The value a description describes. -/
def evaluate (s : Scope) (e : ValueExpr) : Lookup Value :=
  e.eval s.registers

end Scope

/-- The instruction of a block at a position, or the one that ends the block. -/
def instrOf (b : Block) (position : Option Nat) : Lookup Instr :=
  let found :=
    match position with
    | some p => b.instrs[p]?
    | none => b.terminator
  match found with
  | some i => .ok i
  | none => .error .instruction

end Code

end Script
end ThreeAddress
