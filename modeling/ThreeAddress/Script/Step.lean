import ThreeAddress.Script.Assembly

/-!
# Steps of a script

A step creates a module or a builder, makes a call, asks a question, edits code directly, or
works with diagnostics.  Steps can be grouped: a group runs as one computation, which ends at
its first failure.
-/

namespace ThreeAddress
namespace Script

/-- A call with references in place of addresses and values. -/
inductive CallStep where
  | startFunction (name : String) (result : Ty) (params : List (String × Ty))
  | createBlock (function : FunctionRef) (label : String)
  | param (function : FunctionRef) (index : Nat)
  | position (side : Side) (instr : ValueExpr)
  | positionAt (edge : Edge) (block : BlockRef)
  | setLoc (loc : SourceLoc)
  | constant (type : Ty) (number : Binary64)
  | emit (emission : Emission ValueExpr)
  | terminate (termination : Termination ValueExpr BlockRef)
deriving Repr

/-- A question, which changes nothing. -/
inductive Question where
  | location
  | value (v : ValueExpr)
  | printModule (moduleAt : Option Nat)
  | printFunction (function : FunctionRef)
  | printInstr (block : BlockRef) (position : Option Nat)
  | contents (function : FunctionRef)
  | summary (moduleAt : Option Nat)
  | locate (function : FunctionRef) (id : Nat)
  | indexOf (block : BlockRef) (id : Nat)
  | nameOf (function : FunctionRef) (id : Nat)
  | findBlock (function : FunctionRef) (label : String)
  | findFunction (moduleAt : Option Nat) (name : String)
  | equal (lhs rhs : ValueExpr)
  | spelling (v : ValueExpr)
deriving Repr

/-- A change of code that no builder takes part in. -/
inductive Edit where
  /-- Remove an instruction, or the one that ends the block. -/
  | erase (block : BlockRef) (position : Option Nat)
  | setParent (block : BlockRef) (parent : Nat)
  | setName (function : FunctionRef) (id : Nat) (name : String)
  | setTarget (moduleAt : Option Nat) (target : Option String)
deriving Repr

/-- Work with diagnostics. -/
inductive LogStep where
  | nameFile (file : Nat) (name : String)
  | fileName (file : Nat)
  | report (d : Diagnostic)
  | renderOne (file : String) (d : Diagnostic)
  | render
  | contents
deriving Repr

/-- What a step that is no group does. -/
inductive Action where
  | addModule (spec : ModuleSpec)
  | addBuilder (home : Nat) (options : Options)
  | call (c : CallStep)
  | ask (q : Question)
  | edit (e : Edit)
  | log (l : LogStep)
deriving Repr

/-- How the failure of a step is treated. -/
inductive Mode where
  /-- It is the answer. -/
  | direct
  /-- It is the answer, and it is reported as well. -/
  | report
  /-- It becomes a diagnostic, which is the answer. -/
  | expected
  /-- It becomes a diagnostic, which is the answer and is reported as well. -/
  | reported
deriving DecidableEq, Repr

/-- What every step says besides what it does. -/
structure Setting where
  builder : Nat := 0
  mode : Mode := .direct
  /-- The register that a resulting value is stored in. -/
  register : Option String := none
deriving DecidableEq, Repr

/-- One step. -/
inductive Step where
  | single (setting : Setting) (action : Action)
  | group (setting : Setting) (steps : List Step)

/-- The setting of a step. -/
def Step.setting : Step → Setting
  | .single setting _ => setting
  | .group setting _ => setting

end Script
end ThreeAddress
