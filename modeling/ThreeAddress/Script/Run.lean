import ThreeAddress.Script.Session

/-!
# Running a script

A step runs as a computation that may fail, and its mode says what becomes of a failure.  A
group runs its steps one after another, their modes aside, up to the first failure; the
whole group is then one computation under the group's mode.  A reference that names nothing
ends a group at once, and is all that the group answers.
-/

namespace ThreeAddress
namespace Script

/-- Computations on a session that may find a reference missing. -/
abbrev Resolved := ExceptT Missing (StateM Session)

/-- Computations on a session that may also fail. -/
abbrev Attempt := ExceptT BuildError Resolved

section Single

/-- What a reference names, or what is missing. -/
def found {α : Type} : Lookup α → Attempt α
  | .ok a => pure a
  | .error what => throwThe Missing what

/-- Let a builder do something at its bench. -/
def onBench {α : Type} (b : Nat) (act : Build α) : Attempt α := do
  let s ← get
  match s.world.perform b act with
  | none => throwThe Missing .builder
  | some (result, world) =>
      set { s with world }
      match result with
      | .ok a => return a
      | .error e => throwThe BuildError e

/-- Do what a step does, without its mode. -/
def Action.perform (b : Nat) (action : Action) : Attempt Payload := do
  let s ← get
  let scope ← found (s.scope b)
  match action with
  | .addModule spec => do
      let m ← found (spec.assemble scope)
      set { s with world := s.world.addModule m }
      return .number s.world.modules.length
  | .addBuilder home options => do
      let _ ← found (scope.findModule (some home))
      set { s with world := s.world.addBuilder home options }
      return .number s.world.builders.length
  | .call c => do
      let call ← found (c.resolve scope)
      return .ofReply (← onBench b call.perform)
  | .ask q => do
      let builder := s.world.builders.getD b {}
      found (q.answer scope builder)
  | .edit e => do
      let (modules, payload) ← found (e.apply scope)
      set { s with world := { s.world with modules } }
      return payload
  | .log l => do
      let (changed, payload) := l.apply s.log
      set { s with log := changed }
      return payload

/-- Do what a step does, and keep a resulting value in the step's register. -/
def performKeeping (setting : Setting) (action : Action) : Attempt Payload := do
  let payload ← action.perform setting.builder
  modify fun s => s.store setting.register payload.value?
  return payload

end Single

section Modes

/-- Report a diagnostic to the session's log. -/
def sink (d : Diagnostic) : Resolved Unit :=
  modify fun s => { s with log := s.log.report d }

/-- Run a computation under a mode. -/
def Mode.settle (mode : Mode) (act : Attempt Payload) : Resolved Outcome :=
  match mode with
  | .direct => do
      match ← act.run with
      | .ok payload => return .done payload
      | .error e => return .failed e
  | .report => do
      match ← act.run with
      | .ok payload => return .done payload
      | .error e => do
          modify fun s => { s with log := s.log.reportFailure e }
          return .failed e
  | .expected => do
      match ← Reporting.expected act with
      | .ok payload => return .done payload
      | .error d => return .diagnosed d
  | .reported => do
      match ← Reporting.reported sink act with
      | .ok payload => return .done payload
      | .error d => return .diagnosed d

end Modes

section Groups

/-- The count in the answer of a step, with references as they are before the step. -/
def countOf (s : Session) (setting : Setting) (action : Action) : Option (AllocaCount Value) :=
  match s.scope setting.builder with
  | .ok scope => action.count? scope
  | .error _ => none

/-- What a group has answered when it ends, and the failure that ended it, if one did. -/
structure GroupRun where
  answers : List Answer
  failure : Option BuildError

/-- The builder of a group exists. -/
def requireBuilder (b : Nat) : Resolved Unit := do
  if (← get).world.builders[b]?.isSome then pure () else throw .builder

mutual

/-- Run one step of a group; a step that fails has no answer. -/
def Step.perform : Step → Attempt Answer
  | .single setting action => do
      let count := countOf (← get) setting action
      let payload ← performKeeping setting action
      return { outcome := .done payload, count }
  | .group setting steps => do
      requireBuilder setting.builder
      let run ← performAll steps
      match run.failure with
      | some e => throwThe BuildError e
      | none => return { outcome := .done .nothing, inner := some run.answers }

/-- Run the steps of a group up to the first that fails. -/
def performAll : List Step → Resolved GroupRun
  | [] => return ⟨[], none⟩
  | step :: rest => do
      match ← step.perform.run with
      | .error e => return ⟨[], some e⟩
      | .ok answer => do
          let run ← performAll rest
          return { run with answers := answer :: run.answers }

end

/-- The failure of a group as a computation. -/
def GroupRun.replay (run : GroupRun) : Attempt Payload :=
  match run.failure with
  | some e => throwThe BuildError e
  | none => return .nothing

end Groups

section Sessions

/-- Run a step by itself under its mode. -/
def Step.settle : Step → Resolved Answer
  | .single setting action => do
      let count := countOf (← get) setting action
      let outcome ← setting.mode.settle (performKeeping setting action)
      return { outcome, count }
  | .group setting steps => do
      requireBuilder setting.builder
      let run ← performAll steps
      let outcome ← setting.mode.settle run.replay
      return { outcome, inner := some run.answers }

/-- The answer of a step and the session after it. -/
def Session.step (s : Session) (step : Step) : Answer × Session :=
  let (result, s') := step.settle s
  let answer : Answer :=
    match result with
    | .ok answer => answer
    | .error what => { outcome := .missing what }
  let written := s'.world.trace.drop s.world.trace.length
  let view := (s'.world.bench? step.setting.builder).map CursorView.ofBench
  ({ answer with cursor := view, trace := World.traceText written }, s')

/-- The answers of steps, one after another. -/
def Session.run (s : Session) : List Step → List Answer
  | [] => []
  | step :: rest =>
      let (answer, s') := s.step step
      answer :: s'.run rest

end Sessions

end Script
end ThreeAddress
