import ThreeAddress.Builder.Cursor
import ThreeAddress.Opcode
import ThreeAddress.Value.Spelling

/-!
# Faults

Why a builder's call fails.  Each cause is a constructor that carries what the message about
it mentions; its kind and its message are functions of the cause.
-/

namespace ThreeAddress

/-- The kinds of failures. -/
inductive FaultKind where
  | typeMismatch
  | alreadyTerminated
  | invalidArgument
  | notFound
  | noInsertPoint
deriving DecidableEq, Repr

/-- The word for a kind of failure. -/
def FaultKind.text : FaultKind → String
  | .typeMismatch => "type-mismatch"
  | .alreadyTerminated => "already-terminated"
  | .invalidArgument => "invalid-argument"
  | .notFound => "not-found"
  | .noInsertPoint => "no-insert-point"

/-- Why a call fails. -/
inductive Fault where
  | functionUnnamed
  | functionExists (name : String)
  | parameterVoid (parameter : String)
  | blockUnlabelled
  | labelExists (label function : String)
  | parameterMissing (index : Nat) (function : String)
  | notAnInstruction (side : Side) (operand : Value)
  | noCurrentFunction (side : Side)
  | instructionMissing (side : Side) (operand : Value) (function : String)
  | foreignBlock (edge : Edge) (label : String)
  | insertPointUnset (op : Opcode)
  | blockClosed (op : Opcode) (label : String)
  | operandTypesDiffer (op : BinaryOp) (lhs rhs : Ty)
  | symbolUnknown (symbol : String)
  | countOutOfRange (count : Int)
  | countNotInteger (count : Value)
  | countNotPositive (count : Int)
  | notRepresentable (number : Binary64) (type : Ty)
deriving Repr

/-- The word for placing a cursor next to an instruction. -/
def Side.verb : Side → String
  | .before => "positionBefore"
  | .after => "positionAfter"

/-- The word for placing a cursor in a block. -/
def Edge.verb : Edge → String
  | .start => "positionAtStart"
  | .finish => "positionAtEnd"

namespace Fault

/-- The kind of a cause. -/
def kind : Fault → FaultKind
  | functionUnnamed | functionExists _ | parameterVoid _ => .invalidArgument
  | blockUnlabelled | labelExists .. | parameterMissing .. => .invalidArgument
  | notAnInstruction .. | noCurrentFunction _ | instructionMissing .. => .notFound
  | foreignBlock .. => .invalidArgument
  | insertPointUnset _ => .noInsertPoint
  | blockClosed .. => .alreadyTerminated
  | operandTypesDiffer .. => .typeMismatch
  | symbolUnknown _ => .invalidArgument
  | countOutOfRange _ | countNotInteger _ | countNotPositive _ => .invalidArgument
  | notRepresentable .. => .invalidArgument

/-- The number of places with which a message writes a number. -/
def numberPlaces : Nat := 6

/-- The message about a cause. -/
def message : Fault → String
  | functionUnnamed => "startFunction: function name cannot be empty"
  | functionExists name => "startFunction: function '" ++ name ++ "' already exists"
  | parameterVoid parameter =>
      "startFunction: parameter '" ++ parameter ++ "' cannot have void type"
  | blockUnlabelled => "createBlock: block label cannot be empty"
  | labelExists label function =>
      "createBlock: label '" ++ label ++ "' already exists in '" ++ function ++ "'"
  | parameterMissing index function =>
      "param: index " ++ index.repr ++ " out of range for '" ++ function ++ "'"
  | notAnInstruction side operand =>
      side.verb ++ ": operand " ++ operand.spelling ++ " is not an instruction"
  | noCurrentFunction side => side.verb ++ ": no current function"
  | instructionMissing side operand function =>
      side.verb ++ ": instruction " ++ operand.spelling ++ " not found in '" ++ function ++ "'"
  | foreignBlock edge label =>
      edge.verb ++ ": block '" ++ label ++ "' does not belong to this module"
  | insertPointUnset op => op.mnemonic ++ ": insert point not set"
  | blockClosed op label =>
      op.mnemonic ++ ": block '" ++ label ++ "' is already terminated"
  | operandTypesDiffer op lhs rhs =>
      op.mnemonic ++ ": operand types differ (" ++ lhs.spelling ++ " vs " ++ rhs.spelling ++ ")"
  | symbolUnknown symbol => "icmp: unknown comparison operator '" ++ symbol ++ "'"
  | countOutOfRange count => "alloca: count must be in [1, 2^31-1], got " ++ count.repr
  | countNotInteger count =>
      "alloca: count must be an integer value, got " ++ count.type.spelling ++ " " ++
        count.spelling
  | countNotPositive count => "alloca: count must be positive, got " ++ count.repr
  | notRepresentable number type =>
      "constant: " ++ number.fixedText numberPlaces ++ " is not representable as " ++
        type.spelling

end Fault
end ThreeAddress
