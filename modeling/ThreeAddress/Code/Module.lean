import ThreeAddress.Code.Function

/-!
# Modules

A module is a list of functions under a format version, with an optional target.  Functions
and blocks are addressed by their positions, which stay good because both only ever grow at
the end.
-/

namespace ThreeAddress

/-- The version of the textual format. -/
structure FormatVersion where
  major : Nat
  minor : Nat
  patch : Nat
deriving DecidableEq, Repr

namespace FormatVersion

/-- The version this library writes. -/
def current : FormatVersion := ⟨0, 1, 0⟩

/-- Major and minor part; patches do not change the format. -/
def text (v : FormatVersion) : String :=
  v.major.repr ++ "." ++ v.minor.repr

end FormatVersion

/-- A list of functions. -/
structure Module where
  version : String := FormatVersion.current.text
  /-- The machine the code is meant for. -/
  target : Option String := none
  functions : List Function := []
deriving Repr

namespace Module

instance : Inhabited Module := ⟨{}⟩

/-- The position of the first function with a name. -/
def findFunction? (m : Module) (name : String) : Option Nat :=
  m.functions.findIdx? (·.name == name)

/-- The block at a position of the function at a position. -/
def block? (m : Module) (function block : Nat) : Option Block :=
  m.functions[function]? >>= fun f => f.blocks[block]?

/-- Change the function at a position. -/
def modifyFunction (m : Module) (function : Nat) (change : Function → Function) : Module :=
  { m with functions := m.functions.modify function change }

/-- Change the block at a position of the function at a position. -/
def modifyBlock (m : Module) (function block : Nat) (change : Block → Block) : Module :=
  m.modifyFunction function fun f => f.modifyBlock block change

/-- Add a function at the end. -/
def addFunction (m : Module) (f : Function) : Module :=
  { m with functions := m.functions ++ [f] }

/-- Set the target unless the module has one. -/
def supplyTarget (m : Module) (target : Option String) : Module :=
  { m with target := m.target.or target }

end Module
end ThreeAddress
