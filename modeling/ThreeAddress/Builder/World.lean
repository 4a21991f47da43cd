import ThreeAddress.Builder.Build

/-!
# Worlds

A world holds any number of modules and any number of builders that work on them, and the
trace that the builders have written.  A call is made on one builder: its bench is taken from
the world, and what the call left of it is put back, after a failure too.
-/

namespace ThreeAddress

/-- Modules, the builders on them, and the trace. -/
structure World where
  modules : List Module := []
  builders : List Builder := []
  trace : List TraceRecord := []

namespace World

/-- The bench of a builder. -/
def bench? (w : World) (b : Nat) : Option Bench :=
  w.builders[b]?.map fun builder => ⟨builder, w.modules, w.trace⟩

/-- Put back the bench of a builder. -/
def settle (w : World) (b : Nat) (s : Bench) : World where
  modules := s.modules
  builders := w.builders.set b s.builder
  trace := s.trace

/-- Let a builder do something at its bench, if the builder exists. -/
def perform {α : Type} (w : World) (b : Nat) (act : Build α) :
    Option (Except BuildError α × World) :=
  (w.bench? b).map fun s =>
    let (result, s') := act s
    (result, w.settle b s')

/-- Add a module; its position is the number of modules before. -/
def addModule (w : World) (m : Module) : World :=
  { w with modules := w.modules ++ [m] }

/-- Add a builder; its position is the number of builders before. -/
def addBuilder (w : World) (home : Nat) (options : Options) : World :=
  { w with builders := w.builders ++ [{ home, options }] }

/-- The trace as text. -/
def traceText (records : List TraceRecord) : String :=
  String.join (records.map TraceRecord.render)

end World

section Calls

/-- A call on a builder. -/
inductive Call where
  | startFunction (name : String) (result : Ty) (params : List (String × Ty))
  | createBlock (function : FunctionAddr) (label : String)
  | param (function : FunctionAddr) (index : Nat)
  | position (side : Side) (instr : Value)
  | positionAt (edge : Edge) (block : BlockAddr)
  | setLoc (loc : SourceLoc)
  | constant (type : Ty) (number : Binary64)
  | emit (emission : Emission Value)
  | terminate (termination : Termination Value BlockAddr)
deriving Repr

/-- What a call returns. -/
inductive Reply where
  | nothing
  | function (f : Function)
  | block (b : Block)
  | value (v : Value)
  | instr (i : Instr)
deriving Repr

namespace Call

/-- Make a call. -/
def perform : Call → Build Reply
  | startFunction name result params => .function <$> Build.startFunction name result params
  | createBlock function label => .block <$> Build.createBlock function label
  | param function index => .value <$> Build.param function index
  | position side instr => do
      Build.position side instr
      return .nothing
  | positionAt edge block => do
      Build.positionAt edge block
      return .nothing
  | setLoc loc => do
      Build.setLoc loc
      return .nothing
  | constant type number => .value <$> Build.constant type number
  | emit emission => .value <$> Build.emit emission
  | terminate termination => .instr <$> Build.terminate termination

end Call

namespace World

/-- Make a call on a builder; on a builder that does not exist nothing happens. -/
def call (w : World) (b : Nat) (c : Call) : Except BuildError Reply × World :=
  (w.perform b c.perform).getD (.ok .nothing, w)

/-- Make calls one after another, whether they fail or not; the replies are in call order. -/
def run (w : World) : List (Nat × Call) → List (Except BuildError Reply) × World
  | [] => ([], w)
  | (b, c) :: rest =>
      let (reply, w') := w.call b c
      let (replies, w'') := w'.run rest
      (reply :: replies, w'')

end World

end Calls

end ThreeAddress
