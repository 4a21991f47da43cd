import ThreeAddress.Builder.Cursor
import ThreeAddress.Builder.Fault
import ThreeAddress.Builder.TraceRecord

/-!
# A builder at work

A builder belongs to one module and has a cursor and a current location of its own.  What it
works on, its bench, is itself, all modules, and the trace that all builders share.

The module states the parts that calls are made of: checks, which look at the bench and name
a fault, and changes, which cannot fail.
-/

namespace ThreeAddress

/-- How a builder is set up. -/
structure Options where
  /-- Placed instructions are traced. -/
  trace : Bool := false
  /-- The target given to a module that has none when a function is started in it. -/
  target : Option String := none
deriving DecidableEq, Repr

/-- A builder. -/
structure Builder where
  /-- The position of the module the builder belongs to. -/
  home : Nat := 0
  options : Options := {}
  cursor : Cursor := {}
  /-- The location given to placed instructions and to failures. -/
  loc : SourceLoc := {}
deriving DecidableEq, Repr

/-- What a builder works on. -/
structure Bench where
  builder : Builder
  modules : List Module
  trace : List TraceRecord

/-- An open or closed block under a cursor, with its address and the anchor in it. -/
structure Site where
  address : BlockAddr
  anchor : Nat
  block : Block

namespace Bench

section Reading

/-- The module the builder belongs to. -/
def home (s : Bench) : Module :=
  s.modules.getD s.builder.home default

/-- The function at a position of the builder's module. -/
def function? (s : Bench) (position : Nat) : Option Function :=
  s.home.functions[position]?

/-- The current function. -/
def currentFunction? (s : Bench) : Option Function :=
  s.builder.cursor.function.bind fun a => a.read? s.modules

/-- The block under the cursor. -/
def site? (s : Bench) : Option Site :=
  s.builder.cursor.block.bind fun a =>
    (a.read? s.modules).map fun block => ⟨a, s.builder.cursor.anchor, block⟩

/-- The current block. -/
def currentBlock? (s : Bench) : Option Block :=
  s.site?.map Site.block

/-- The label of the block at an address. -/
def labelAt (s : Bench) (a : BlockAddr) : String :=
  ((a.read? s.modules).map Block.label).getD ""

end Reading

section Checks

/-- A function may be started: it has a new name, and no parameter is void. -/
def admitFunction (s : Bench) (name : String) (params : List (String × Ty)) :
    Except Fault Unit :=
  if name = "" then .error .functionUnnamed
  else if (s.home.findFunction? name).isSome then .error (.functionExists name)
  else
    match params.find? fun p => p.2.isVoid with
    | some p => .error (.parameterVoid p.1)
    | none => .ok ()

/-- A block may be created in a function: its label is new there. -/
def admitBlock (f : Function) (label : String) : Except Fault Unit :=
  if label = "" then .error .blockUnlabelled
  else if (f.findBlock? label).isSome then .error (.labelExists label f.name)
  else .ok ()

/-- The value of a parameter. -/
def parameter (f : Function) (index : Nat) : Except Fault Value :=
  match f.params[index]? with
  | some p => .ok (.temp p.id p.type f.index)
  | none => .error (.parameterMissing index f.name)

/--
The block of the current function, and the position in it, of the instruction that a value
names.  A value names an instruction by its number and by the index of its function.
-/
def locate (s : Bench) (side : Side) (v : Value) : Except Fault (BlockAddr × Nat) :=
  match v with
  | .temp id _ owner =>
      match s.builder.cursor.function.bind fun a => (a.read? s.modules).map fun f => (a, f) with
      | none => .error (.noCurrentFunction side)
      | some (a, f) =>
          match if owner = f.index then f.locate? id else none with
          | some p => .ok (a.block p.block, p.index)
          | none => .error (.instructionMissing side v f.name)
  | _ => .error (.notAnInstruction side v)

/-- The block at an address, if its parent is the function that holds it, here at home. -/
def entry (s : Bench) (edge : Edge) (a : BlockAddr) : Except Fault Block :=
  match a.read? s.modules with
  | none => .error (.foreignBlock edge "")
  | some b =>
      if a.moduleAt = s.builder.home ∧ a.functionAt = b.parent then .ok b
      else .error (.foreignBlock edge b.label)

/-- The block under the cursor, if it is still open. -/
def openSite (s : Bench) (op : Opcode) : Except Fault Site :=
  match s.site? with
  | none => .error (.insertPointUnset op)
  | some site =>
      if site.block.isClosed then .error (.blockClosed op site.block.label) else .ok site

/-- Integer constants of 64 bits are below 2 to the 63rd in size. -/
def integerBound : Int := 0x8000000000000000

/-- A number as a constant; a type that is not floating-point takes integers of 64 bits. -/
def constant (type : Ty) (x : Binary64) : Except Fault Value :=
  if type.isFloatingPoint then .ok (.float type x)
  else
    match x.toInt? with
    | some n =>
        if -integerBound ≤ n ∧ n < integerBound then .ok (.int type n)
        else .error (.notRepresentable x type)
    | none => .error (.notRepresentable x type)

end Checks

section Changes

/-- Change the module the builder belongs to. -/
def modifyHome (s : Bench) (change : Module → Module) : Bench :=
  { s with modules := s.modules.modify s.builder.home change }

/-- Move the cursor. -/
def moveTo (s : Bench) (cursor : Cursor) : Bench :=
  { s with builder := { s.builder with cursor } }

/-- Add a function to the builder's module and make it the current one. -/
def openFunction (s : Bench) (f : Function) : Bench :=
  (s.modifyHome fun m => (m.supplyTarget s.builder.options.target).addFunction f).moveTo
    { function := some ⟨s.builder.home, s.home.functions.length⟩ }

/-- The instruction that a draft becomes in a block: it takes its number from the parent. -/
def stamp (s : Bench) (b : Block) (d : Draft) : Instr :=
  { d with
    id := ((s.function? b.parent).getD default).nextId
    parent := b.parent
    loc := s.builder.loc }

/-- Record a placed instruction, if the builder traces. -/
def record (s : Bench) (b : Block) (position : Nat) (i : Instr) : Bench :=
  if s.builder.options.trace then
    let function := ((s.function? i.parent).getD default).name
    { s with trace := s.trace ++ [.ofInstr function b.label position i] }
  else s

/-- Give out an instruction's number under its name, and change the block it goes into. -/
def commit (s : Bench) (site : Site) (i : Instr) (change : Block → Block) : Bench :=
  let reserved := s.modifyHome fun m => m.modifyFunction i.parent fun f => f.reserve i.name
  { reserved with modules := site.address.modify change reserved.modules }

/-- The position at which the next instruction goes into a block. -/
def insertPosition (site : Site) : Nat :=
  min site.anchor site.block.size

/-- Put an instruction into the block under the cursor; the anchor moves behind it. -/
def insert (s : Bench) (site : Site) (i : Instr) : Bench :=
  let position := insertPosition site
  ((s.commit site i fun b => b.insert position i).moveTo
    { s.builder.cursor with anchor := position + 1 }).record site.block position i

/-- End the block under the cursor; the anchor stays. -/
def close (s : Bench) (site : Site) (i : Instr) : Bench :=
  (s.commit site i fun b => b.close i).record site.block site.block.size i

end Changes

end Bench
end ThreeAddress
