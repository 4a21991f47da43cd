import ThreeAddress.Code.Instr

/-!
# Trace records

A builder that traces writes one line for every instruction it places: where it went, what it
does, and the number of its result.
-/

namespace ThreeAddress

/-- One placed instruction. -/
structure TraceRecord where
  function : String
  block : String
  /-- The position in the block; the block's length for an instruction that ends it. -/
  position : Nat
  mnemonic : String
  predicate : String
  /-- The number of the result, if there is one. -/
  result : Option Nat
deriving DecidableEq, Repr

namespace TraceRecord

/-- The record of an instruction placed in a block of a function. -/
def ofInstr (function block : String) (position : Nat) (i : Instr) : TraceRecord where
  function := function
  block := block
  position := position
  mnemonic := i.op.mnemonic
  predicate := i.predicate
  result := if i.hasResult then some i.id else none

/-- A predicate after a blank, if there is one. -/
def predicateText (predicate : String) : String :=
  if predicate = "" then "" else " " ++ predicate

/-- The result after a blank, if there is one. -/
def resultText : Option Nat → String
  | none => ""
  | some id => " %t" ++ id.repr

/-- The line for a record. -/
def render (r : TraceRecord) : String :=
  "[tacir.build] " ++ r.function ++ ":" ++ r.block ++ "@" ++ r.position.repr ++ " " ++
    r.mnemonic ++ predicateText r.predicate ++ resultText r.result ++ "\n"

end TraceRecord
end ThreeAddress
