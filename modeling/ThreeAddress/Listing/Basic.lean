import ThreeAddress.Code.Module
import ThreeAddress.Listing.TempNames
import ThreeAddress.Value.Spelling

/-!
# Listings

The text of instructions, functions and modules.  Temporaries are written under the names
that the table of their function gives them; everything inside an aggregate is written as
the value on its own would be.
-/

namespace ThreeAddress
namespace Listing

/-- The spellings of a function's numbers. -/
abbrev Names := List String

/-- The spellings used in the listing of a function. -/
def namesOf (f : Function) : Names :=
  TempNames.table f.names

section Operands

/-- An operand without its type. -/
def operand (names : Names) : Value → String
  | .temp id _ _ => "%" ++ TempNames.lookup names id
  | v => v.spelling

/-- An operand after its type. -/
def typedOperand (names : Names) (v : Value) : String :=
  v.type.spelling ++ " " ++ operand names v

/-- All operands after their types. -/
def typedOperands (names : Names) (operands : List Value) : String :=
  match operands with
  | [] => ""
  | _ :: _ => " " ++ ", ".intercalate (operands.map (typedOperand names))

/-- The operand at a position; one that is missing is written as an unset value. -/
def operandAt (i : Draft) (position : Nat) : Value :=
  i.operands.getD position Value.unset

/-- What follows the operation's word in the listing of an instruction. -/
def arguments (names : Names) (i : Draft) : String :=
  match i.op with
  | .binary _ =>
      " " ++ i.type.spelling ++ " " ++ operand names (operandAt i 0) ++
        ", " ++ operand names (operandAt i 1)
  | .icmp | .fcmp =>
      " " ++ i.predicate ++ " " ++ typedOperand names (operandAt i 0) ++
        ", " ++ operand names (operandAt i 1)
  | .cast _ =>
      " " ++ typedOperand names (operandAt i 0) ++ " to " ++ i.type.spelling
  | .alloca =>
      " " ++ i.type.pointee.spelling ++
        match i.operands with
        | [] => ""
        | count :: _ => ", " ++ typedOperand names count
  | .load =>
      " " ++ i.type.spelling ++ ", " ++ typedOperand names (operandAt i 0)
  | .store =>
      " " ++ typedOperand names (operandAt i 0) ++ ", " ++ typedOperand names (operandAt i 1)
  | .jump | .branch => typedOperands names i.operands
  | .ret =>
      match i.operands with
      | [] => " void"
      | v :: _ => " " ++ typedOperand names v

end Operands

section Instructions

/-- The definition of an instruction's result, or nothing if it has none. -/
def definition (names : Names) (i : Instr) : String :=
  match i.result? with
  | some v => operand names v ++ " = "
  | none => ""

/-- An instruction. -/
def ofInstr (names : Names) (i : Instr) : String :=
  definition names i ++ i.op.mnemonic ++ arguments names i.toDraft

/-- An instruction on a line of its own. -/
def instrLine (names : Names) (i : Instr) : String :=
  "  " ++ ofInstr names i ++ "\n"

/-- A block: its label, its instructions, and its end if it has one. -/
def ofBlock (names : Names) (b : Block) : String :=
  b.label ++ ":\n" ++ String.join ((b.instrs ++ b.terminator.toList).map (instrLine names))

end Instructions

section Functions

/-- The parameter list of a function. -/
def params (names : Names) (f : Function) : String :=
  ", ".intercalate
    (f.params.map fun p => typedOperand names (.temp p.id p.type f.index))

/-- A function. -/
def ofFunction (f : Function) : String :=
  let names := namesOf f
  "define " ++ f.result.spelling ++ " @" ++ f.name ++ "(" ++ params names f ++ ") \x7b\n" ++
    String.join (f.blocks.map (ofBlock names)) ++ "\x7d\n"

/-- The line that names a module's target, if it has one. -/
def targetLine : Option String → String
  | some target => "target \"" ++ target ++ "\"\n"
  | none => ""

/-- A module: its version, its target, and its functions, each after an empty line. -/
def ofModule (m : Module) : String :=
  "; tacir " ++ m.version ++ "\n" ++ targetLine m.target ++
    String.join (m.functions.map fun f => "\n" ++ ofFunction f)

end Functions

end Listing
end ThreeAddress
