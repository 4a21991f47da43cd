import ThreeAddress.Builder.Reporting
import ThreeAddress.Listing.Basic
import ThreeAddress.Script.Answer
import ThreeAddress.Script.Step

/-!
# Sessions

A session runs the steps of a script on a world, a log of diagnostics and registers.  A step
resolves its references first; only if all of them name something does it do anything.
-/

namespace ThreeAddress
namespace Script

/-- The state that steps work on. -/
structure Session where
  world : World := {}
  log : Log := {}
  registers : Registers := []

namespace Session

/-- One empty module and one builder on it. -/
def start (options : Options) : Session where
  world := ({} : World).addModule {} |>.addBuilder 0 options

/-- What the references of a step on a builder are resolved in. -/
def scope (s : Session) (b : Nat) : Lookup Scope :=
  match s.world.builders[b]? with
  | some builder => .ok ⟨s.world.modules, builder.home, s.registers⟩
  | none => .error .builder

/-- Keep a value in a register. -/
def store (s : Session) (register : Option String) (v : Option Value) : Session :=
  match register, v with
  | some name, some v => { s with registers := (name, v) :: s.registers }
  | _, _ => s

end Session

section Resolution

/-- The call that a step makes. -/
def CallStep.resolve (s : Scope) : CallStep → Lookup Call
  | .startFunction name result params => .ok (.startFunction name result params)
  | .createBlock ref label => return .createBlock (← s.findFunction ref).1 label
  | .param ref index => return .param (← s.findFunction ref).1 index
  | .position side e => return .position side (← s.evaluate e)
  | .positionAt edge ref => return .positionAt edge (← s.findBlock ref).1
  | .setLoc loc => .ok (.setLoc loc)
  | .constant type number => .ok (.constant type number)
  | .emit emission => return .emit (← emission.mapM s.evaluate)
  | .terminate termination =>
      return .terminate (← termination.mapM s.evaluate fun ref => return (← s.findBlock ref).1)

/-- The count that a step asks for storage with, if it does. -/
def Action.count? (s : Scope) : Action → Option (AllocaCount Value)
  | .call (.emit (.alloca _ count _)) => (count.mapM s.evaluate).toOption
  | _ => none

end Resolution

section Questions

/-- The answer to a question on a builder. -/
def Question.answer (s : Scope) (builder : Builder) : Question → Lookup Payload
  | .location => .ok (.location builder.loc)
  | .value e => return .value (← s.evaluate e)
  | .printModule moduleAt => do
      let (_, m) ← s.findModule moduleAt
      return .text (Listing.ofModule m)
  | .printFunction ref => do
      let (_, f) ← s.findFunction ref
      return .text (Listing.ofFunction f)
  | .printInstr ref position => do
      let (_, f, b) ← s.findBlock ref
      let i ← instrOf b position
      return .text (Listing.ofInstr (Listing.namesOf f) i)
  | .contents ref => return .contents (← s.findFunction ref).2
  | .summary moduleAt => return .summary (← s.findModule moduleAt).2
  | .locate ref id => do
      let (_, f) ← s.findFunction ref
      return match f.locate? id with
        | some p => .place ((f.blocks[p.block]?.map Block.label).getD "") p.index
        | none => .nothing
  | .indexOf ref id => do
      let (_, _, b) ← s.findBlock ref
      return match b.indexOf? id with
        | some index => .number index
        | none => .nothing
  | .nameOf ref id => return .text ((← s.findFunction ref).2.nameOf id)
  | .findBlock ref label => do
      let (_, f) ← s.findFunction ref
      return match (f.findBlock? label).bind fun p => f.blocks[p]? with
        | some b => .block b
        | none => .nothing
  | .findFunction moduleAt name => do
      let (_, m) ← s.findModule moduleAt
      return match (m.findFunction? name).bind fun p => m.functions[p]? with
        | some f => .function f
        | none => .nothing
  | .equal lhs rhs => do
      let v ← s.evaluate lhs
      let w ← s.evaluate rhs
      return .equality (v == w) (v != w)
  | .spelling e => do
      let v ← s.evaluate e
      return .spelling v.spelling v.isConstant

end Questions

section Edits

/-- The answer after the block at an address was changed. -/
def changedBlock (s : Scope) (a : BlockAddr) (change : Block → Block) (b : Block) :
    List Module × Payload :=
  (a.modify change s.modules, .block (change b))

/-- The modules after an edit, and its answer. -/
def Edit.apply (s : Scope) : Edit → Lookup (List Module × Payload)
  | .erase ref position => do
      let (a, _, b) ← s.findBlock ref
      let _ ← instrOf b position
      return match position with
        | some p => changedBlock s a (fun b => b.erase p) b
        | none => changedBlock s a Block.reopen b
  | .setParent ref parent => do
      let (a, _, b) ← s.findBlock ref
      return changedBlock s a (fun b => { b with parent }) b
  | .setName ref id name => do
      let (a, f) ← s.findFunction ref
      if id < f.nextId then
        return (a.modify (fun f => { f with names := f.names.set id name }) s.modules, .nothing)
      else .error .name
  | .setTarget moduleAt target => do
      let (position, _) ← s.findModule moduleAt
      return (s.modules.modify position fun m => { m with target }, .nothing)

end Edits

section Logging

/-- The log after a step on it, and its answer. -/
def LogStep.apply (log : Log) : LogStep → Log × Payload
  | .nameFile file name => (log.nameFile file name, .nothing)
  | .fileName file => (log, .text (log.fileName file))
  | .report d =>
      let log := log.report d
      (log, .number log.diagnostics.length)
  | .renderOne file d => (log, .text (d.render file))
  | .render => (log, .text log.render)
  | .contents => (log, .log log)

end Logging

end Script
end ThreeAddress
