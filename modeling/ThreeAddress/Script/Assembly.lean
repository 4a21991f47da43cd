import ThreeAddress.Script.Reference

/-!
# Modules assembled from parts

A script may bring a module of its own, part by part.  Nothing about it is checked: names,
labels and numbers may repeat, and indices may disagree with positions.  What a part leaves
open is filled in from its place.
-/

namespace ThreeAddress
namespace Script

/-- An instruction with described operands. -/
structure InstrSpec where
  /-- Everything but the operands. -/
  frame : Instr
  operands : List ValueExpr := []
deriving Repr

/-- A block; its parent is its function's index unless it says otherwise. -/
structure BlockSpec where
  label : String
  parent : Option Nat := none
  instrs : List InstrSpec := []
  terminator : Option InstrSpec := none
deriving Repr

/-- A function; its index is its position unless it says otherwise. -/
structure FunctionSpec where
  name : String
  index : Option Nat := none
  result : Ty := Ty.void
  params : List Param := []
  names : List String := []
  blocks : List BlockSpec := []
deriving Repr

/-- A module; its version is the current one unless it says otherwise. -/
structure ModuleSpec where
  version : Option String := none
  target : Option String := none
  functions : List FunctionSpec := []
deriving Repr

/-- The instruction specified. -/
def InstrSpec.assemble (s : Scope) (spec : InstrSpec) : Lookup Instr := do
  let operands ← evalValues s.registers spec.operands
  return { spec.frame with operands }

/-- The block specified, in a function with an index. -/
def BlockSpec.assemble (s : Scope) (index : Nat) (spec : BlockSpec) : Lookup Block := do
  let instrs ← spec.instrs.mapM (InstrSpec.assemble s)
  let terminator ← spec.terminator.mapM (InstrSpec.assemble s)
  return { label := spec.label, parent := spec.parent.getD index, instrs, terminator }

/-- The function specified, at a position. -/
def FunctionSpec.assemble (s : Scope) (position : Nat) (spec : FunctionSpec) :
    Lookup Function := do
  let index := spec.index.getD position
  let blocks ← spec.blocks.mapM (BlockSpec.assemble s index)
  return { spec with index, blocks }

/-- The module specified. -/
def ModuleSpec.assemble (s : Scope) (spec : ModuleSpec) : Lookup Module := do
  let functions ← spec.functions.zipIdx.mapM fun (f, position) => f.assemble s position
  return {
    version := spec.version.getD FormatVersion.current.text
    target := spec.target
    functions }

end Script
end ThreeAddress
