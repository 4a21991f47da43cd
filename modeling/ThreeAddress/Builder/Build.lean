import ThreeAddress.Builder.Bench
import ThreeAddress.Builder.BuildError
import ThreeAddress.Builder.Emission

/-!
# Calls on a builder

Every call first makes all its checks and only then changes its bench, so a call that fails
leaves everything as it was.  A failure carries the builder's current location.
-/

namespace ThreeAddress

/-- A computation on a bench that may fail; what was done before a failure stays done. -/
abbrev Build := ExceptT BuildError (StateM Bench)

namespace Build

/-- Pass a check, or fail with its fault at the current location. -/
def check {α : Type} : Except Fault α → Build α
  | .ok a => pure a
  | .error fault => do throw (fault.raisedAt (← get).builder.loc)

section Construction

/-- Start a function in the builder's module; it has no block, and the cursor is in none. -/
def startFunction (name : String) (result : Ty) (params : List (String × Ty)) :
    Build Function := do
  let s ← get
  check (s.admitFunction name params)
  let f := Function.declare name s.home.functions.length result params
  set (s.openFunction f)
  return f

/-- Create an empty block in a function of any module; the cursor stays. -/
def createBlock (a : FunctionAddr) (label : String) : Build Block := do
  let s ← get
  let f := (a.read? s.modules).getD default
  check (Bench.admitBlock f label)
  set { s with modules := a.modify (fun f => f.addBlock label) s.modules }
  return f.newBlock label

/-- The value of a parameter of a function of any module. -/
def param (a : FunctionAddr) (index : Nat) : Build Value := do
  let s ← get
  check (Bench.parameter ((a.read? s.modules).getD default) index)

end Construction

section Positioning

/-- Place the cursor next to an instruction of the current function. -/
def position (side : Side) (v : Value) : Build Unit := do
  let s ← get
  let (a, index) ← check (s.locate side v)
  set (s.moveTo { s.builder.cursor with block := some a, anchor := side.anchor index })

/-- Place the cursor at an end of a block of the builder's module. -/
def positionAt (edge : Edge) (a : BlockAddr) : Build Unit := do
  let s ← get
  let b ← check (s.entry edge a)
  set (s.moveTo ⟨some a.function, some a, edge.anchor b.size⟩)

/-- Set the location of what follows. -/
def setLoc (loc : SourceLoc) : Build Unit :=
  modify fun s => { s with builder := { s.builder with loc } }

end Positioning

section Placement

/-- A number as a constant of a type. -/
def constant (type : Ty) (x : Binary64) : Build Value :=
  check (Bench.constant type x)

/-- Place an instruction in the current block and return its handle. -/
def emit (e : Emission Value) : Build Value := do
  let draft ← check e.draft
  let s ← get
  let site ← check (s.openSite draft.op)
  let i := s.stamp site.block draft
  set (s.insert site i)
  return i.handle

/-- End the current block and return the instruction that ends it. -/
def terminate (t : Termination Value BlockAddr) : Build Instr := do
  let s ← get
  let draft := t.draft fun a => s.labelAt a
  let site ← check (s.openSite draft.op)
  let i := s.stamp site.block draft
  set (s.close site i)
  return i

end Placement

end Build
end ThreeAddress
