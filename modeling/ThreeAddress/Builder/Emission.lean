import ThreeAddress.Builder.Fault
import ThreeAddress.Code.Instr
import ThreeAddress.Comparison

/-!
# Emissions and terminations

What a caller may ask a builder to place: an emission goes into the sequence of a block, a
termination ends the block.  Each determines a draft from its arguments alone, and checks
them while doing so; a termination's arguments need no check.

Emissions and terminations are stated over any type of operands and of target blocks, so
that operands may be given by a description and looked up later.
-/

namespace ThreeAddress

universe u v w

/-- How many objects storage is allocated for. -/
inductive AllocaCount (ν : Type u) where
  /-- One object; no count is recorded. -/
  | single
  | literal (count : Int)
  | value (count : ν)
deriving Repr

/-- An instruction for the sequence of a block, over a type of operands. -/
inductive Emission (ν : Type u) where
  | binary (op : BinaryOp) (lhs rhs : ν) (name : String)
  | intCompare (sign : Signedness) (symbol : String) (lhs rhs : ν) (name : String)
  | floatCompare (order : Orderedness) (symbol : String) (lhs rhs : ν) (name : String)
  | cast (op : CastOp) (operand : ν) (type : Ty) (name : String)
  | alloca (type : Ty) (count : AllocaCount ν) (name : String)
  | load (address : ν) (name : String)
  | store (value address : ν)
deriving Repr

/-- An instruction that ends a block, over types of operands and of target blocks. -/
inductive Termination (ν : Type u) (β : Type v) where
  | jump (target : β)
  | branch (condition : ν) (onTrue onFalse : β)
  | ret (value : Option ν)
deriving Repr

section Traversal

variable {ν μ : Type u} {β γ : Type u} {m : Type u → Type w} [Monad m]

/-- Look up the operand of a count. -/
def AllocaCount.mapM (f : ν → m μ) : AllocaCount ν → m (AllocaCount μ)
  | .single => pure .single
  | .literal count => pure (.literal count)
  | .value count => return .value (← f count)

/-- Look up the operands of an emission, from left to right. -/
def Emission.mapM (f : ν → m μ) : Emission ν → m (Emission μ)
  | .binary op lhs rhs name => return .binary op (← f lhs) (← f rhs) name
  | .intCompare sign symbol lhs rhs name =>
      return .intCompare sign symbol (← f lhs) (← f rhs) name
  | .floatCompare order symbol lhs rhs name =>
      return .floatCompare order symbol (← f lhs) (← f rhs) name
  | .cast op operand type name => return .cast op (← f operand) type name
  | .alloca type count name => return .alloca type (← count.mapM f) name
  | .load address name => return .load (← f address) name
  | .store value address => return .store (← f value) (← f address)

/-- Look up the operands and targets of a termination, from left to right. -/
def Termination.mapM (f : ν → m μ) (g : β → m γ) : Termination ν β → m (Termination μ γ)
  | .jump target => return .jump (← g target)
  | .branch condition onTrue onFalse =>
      return .branch (← f condition) (← g onTrue) (← g onFalse)
  | .ret none => pure (.ret none)
  | .ret (some value) => return .ret (some (← f value))

end Traversal

section Drafts

/-- Literal counts are below 2 to the 31st. -/
def countBound : Int := 0x80000000

/-- The type of literal counts. -/
def countType : Ty := Ty.int 32

/-- A value that can count objects: an integer constant or a temporary of integer type. -/
def Value.isCount : Value → Bool
  | .temp _ type _ => type.isInt
  | .int type _ => type.isInt
  | _ => false

/-- The operands that record a count, if it is a possible one. -/
def AllocaCount.operands : AllocaCount Value → Except Fault (List Value)
  | .single => .ok []
  | .literal count =>
      if 0 < count ∧ count < countBound then .ok [.int countType count]
      else .error (.countOutOfRange count)
  | .value count =>
      if count.isCount then
        match count with
        | .int _ payload =>
            if 0 < payload then .ok [count] else .error (.countNotPositive payload)
        | _ => .ok [count]
      else .error (.countNotInteger count)

/-- The draft of an emission; fails if the arguments do not fit. -/
def Emission.draft : Emission Value → Except Fault Draft
  | .binary op lhs rhs name =>
      if lhs.type = rhs.type then
        .ok { op := .binary op, type := lhs.type, operands := [lhs, rhs], name }
      else .error (.operandTypesDiffer op lhs.type rhs.type)
  | .intCompare sign symbol lhs rhs name =>
      match Comparison.intPredicate? sign symbol with
      | some predicate =>
          .ok { op := .icmp, type := Ty.bool, operands := [lhs, rhs], name, predicate }
      | none => .error (.symbolUnknown symbol)
  | .floatCompare order symbol lhs rhs name =>
      let predicate := Comparison.floatPredicate order symbol
      .ok { op := .fcmp, type := Ty.bool, operands := [lhs, rhs], name, predicate }
  | .cast op operand type name =>
      .ok { op := .cast op, type, operands := [operand], name }
  | .alloca type count name => do
      let operands ← count.operands
      return { op := .alloca, type := type.pointer, operands, name }
  | .load address name =>
      .ok { op := .load, type := address.type.pointee, operands := [address], name }
  | .store value address =>
      .ok { op := .store, operands := [value, address] }

/-- The draft of a termination; targets are recorded by their labels. -/
def Termination.draft {β : Type v} (label : β → String) : Termination Value β → Draft
  | .jump target => { op := .jump, operands := [.block (label target)] }
  | .branch condition onTrue onFalse =>
      { op := .branch
        operands := [condition, .block (label onTrue), .block (label onFalse)] }
  | .ret value => { op := .ret, operands := value.toList }

end Drafts

end ThreeAddress
