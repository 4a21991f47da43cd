import ThreeAddress.Script.Reference

/-!
# Answers

What a step answers: how it came out, with the data asked for, and what can be seen of its
builder afterwards.
-/

namespace ThreeAddress
namespace Script

/-- The data in an answer. -/
inductive Payload where
  | nothing
  | number (n : Nat)
  | text (s : String)
  | location (loc : SourceLoc)
  | value (v : Value)
  | instr (i : Instr)
  | block (b : Block)
  | function (f : Function)
  /-- A function with everything in it. -/
  | contents (f : Function)
  /-- A module with the names of its functions. -/
  | summary (m : Module)
  /-- The label of a block and a position in it. -/
  | place (label : String) (index : Nat)
  /-- The answers to being equal and to being different. -/
  | equality (equal different : Bool)
  /-- The text of a value, and whether it is a constant. -/
  | spelling (text : String) (isConstant : Bool)
  | log (l : Log)
deriving Repr

/-- The value that can be kept of an answer. -/
def Payload.value? : Payload → Option Value
  | .value v => some v
  | .instr i => some i.handle
  | _ => none

/-- The data in the reply to a call. -/
def Payload.ofReply : Reply → Payload
  | .nothing => .nothing
  | .function f => .function f
  | .block b => .block b
  | .value v => .value v
  | .instr i => .instr i

/-- How a step came out. -/
inductive Outcome where
  | done (payload : Payload)
  | failed (e : BuildError)
  | diagnosed (d : Diagnostic)
  | missing (what : Missing)
deriving Repr

/-- What can be seen of a builder. -/
structure CursorView where
  function : Option String
  block : Option String
  anchor : Nat
  /-- The next number of the current function. -/
  next : Option Nat
deriving DecidableEq, Repr

/-- The view of a builder at its bench. -/
def CursorView.ofBench (s : Bench) : CursorView where
  function := s.currentFunction?.map Function.name
  block := s.currentBlock?.map Block.label
  anchor := s.builder.cursor.anchor
  next := s.currentFunction?.map Function.nextId

/-- The answer of one step. -/
structure Answer where
  outcome : Outcome
  /-- The count that storage was asked for with. -/
  count : Option (AllocaCount Value) := none
  /-- The answers of the steps of a group that were completed. -/
  inner : Option (List Answer) := none
  /-- The builder after the step, unless it does not exist. -/
  cursor : Option CursorView := none
  /-- What the step added to the trace. -/
  trace : String := ""

end Script
end ThreeAddress
