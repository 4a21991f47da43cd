import ThreeAddress.Proofs.Tracing
import ThreeAddress.Script.Run

/-!
# Tracing changes nothing else

A builder that traces does what it would do without tracing, and writes lines about it.  So tracing
may be switched off: from a session whose builders do not trace, with steps that set up none that
traces, a script gives the same answers but for the traced text, of which there is none, and after
every step it leaves the same code, cursors, locations, diagnostics and registers
(`Session.tracing_changes_nothing`).

This does not depend on what else is done to the modules: they may be changed in any way between
the steps (`Session.turns`).

Every part of a session is compared with the same part of the untraced session by `SameAt`, and this
is carried through sequences of computations by `SameAt.bind`.
-/

namespace ThreeAddress

section Definitions

/-- A builder that does not trace. -/
def Builder.untraced (builder : Builder) : Builder :=
  { builder with options := { builder.options with trace := false } }

/-- The bench of a builder that does not trace, with nothing traced. -/
def Bench.untraced (s : Bench) : Bench :=
  ⟨s.builder.untraced, s.modules, []⟩

/-- A world whose builders do not trace, with nothing traced. -/
def World.untraced (w : World) : World :=
  ⟨w.modules, w.builders.map Builder.untraced, []⟩

namespace Script

/-- A session whose builders do not trace, with nothing traced. -/
def Session.untraced (s : Session) : Session :=
  { s with world := s.world.untraced }

/-- An action that does not set up a builder that traces. -/
def Action.untraced : Action → Action
  | .addBuilder home options => .addBuilder home { options with trace := false }
  | action => action

mutual

/-- A step that does not set up a builder that traces, nor do the steps in it. -/
def Step.untraced : Step → Step
  | .single setting action => .single setting action.untraced
  | .group setting steps => .group setting (untracedSteps steps)

/-- Steps that do not set up a builder that traces. -/
def untracedSteps : List Step → List Step
  | [] => []
  | step :: rest => step.untraced :: untracedSteps rest

end

/-- An answer without traced text. -/
def Answer.untraced (answer : Answer) : Answer :=
  { answer with trace := "" }

/-- The session after a script. -/
def Session.after (s : Session) : List Step → Session
  | [] => s
  | step :: rest => (s.step step).2.after rest

/-- A session with its modules changed, by no step of a script. -/
def Session.change (s : Session) (edit : List Module → List Module) : Session :=
  { s with world := { s.world with modules := edit s.world.modules } }

/-- The answers of a script, and the session after it, with a change before every step. -/
def Session.turns
    (s : Session) :
    List ((List Module → List Module) × Step) → List Answer × Session
  | [] => ([], s)
  | (edit, step) :: rest =>
      let (answer, s') := (s.change edit).step step
      let (answers, s'') := s'.turns rest
      (answer :: answers, s'')

end Script

end Definitions

section Calls

namespace Bench

variable (s : Bench)

theorem record_untraced
    (b : Block)
    (position : Nat)
    (i : Instr) :
    s.untraced.record b position i = (s.record b position i).untraced := by
  by_cases htrace : s.builder.options.trace
  · simp [record, untraced, Builder.untraced, htrace]
  · simp [record, untraced, Builder.untraced, htrace]

theorem insert_untraced
    (site : Site)
    (i : Instr) :
    s.untraced.insert site i = (s.insert site i).untraced :=
  let position := insertPosition site
  let placed := (s.commit site i fun b => b.insert position i).moveTo
    { s.builder.cursor with anchor := position + 1 }
  placed.record_untraced site.block position i

theorem close_untraced
    (site : Site)
    (i : Instr) :
    s.untraced.close site i = (s.close site i).untraced :=
  let placed := s.commit site i fun b => b.close i
  placed.record_untraced site.block site.block.size i

end Bench

/-- A call comes to the same whether its builder traces or not. -/
theorem Call.plan_untraced
    (s : Bench)
    (c : Call) :
    c.plan s.untraced = (c.plan s).map fun outcome => (outcome.1, outcome.2.untraced) := by
  cases c with
  | startFunction name result params =>
      exact Plan.map_bind (s.admitFunction name params) fun _ => rfl
  | createBlock a label =>
      exact Plan.map_bind (Bench.admitBlock ((a.read? s.modules).getD default) label) fun _ => rfl
  | param a index =>
      exact Plan.map_bind (Bench.parameter ((a.read? s.modules).getD default) index) fun _ => rfl
  | position side v =>
      exact Plan.map_bind (s.locate side v) fun _ => rfl
  | positionAt edge a =>
      exact Plan.map_bind (s.entry edge a) fun _ => rfl
  | setLoc loc =>
      rfl
  | constant type x =>
      exact Plan.map_bind (Bench.constant type x) fun _ => rfl
  | emit e =>
      refine Plan.map_bind e.draft fun d => Plan.map_bind (s.openSite d.op) fun site => ?_
      let i := s.stamp site.block d
      exact congrArg (fun s' => Except.ok (Reply.value i.handle, s')) (s.insert_untraced site i)
  | terminate t =>
      let d := t.draft s.labelAt
      refine Plan.map_bind (s.openSite d.op) fun site => ?_
      let i := s.stamp site.block d
      exact congrArg (fun s' => Except.ok (Reply.instr i, s')) (s.close_untraced site i)

theorem Call.perform_untraced
    (s : Bench)
    (c : Call) :
    c.perform s.untraced = ((c.perform s).1, (c.perform s).2.untraced) := by
  rw [perform_eq_plan, perform_eq_plan, plan_untraced]
  cases c.plan s <;> rfl

namespace World

variable {w : World} {b : Nat} {builder : Builder}

/-- What a builder does is done at its bench, and the bench is put back. -/
theorem perform_eq
    {α : Type}
    (hb : w.builders[b]? = some builder)
    (act : Build α) :
    w.perform b act =
      some ((act (w.benchOf builder)).1, w.settle b (act (w.benchOf builder)).2) := by
  simp only [perform, bench?, hb, Option.map_some]
  rfl

theorem settle_untraced
    (w : World)
    (b : Nat)
    (s : Bench) :
    w.untraced.settle b s.untraced = (w.settle b s).untraced := by
  simp only [settle, untraced, Bench.untraced, List.map_set]

/-- What a call does at a bench it does at the untraced bench. -/
theorem perform_untraced
    (w : World)
    (b : Nat)
    (c : Call) :
    w.untraced.perform b c.perform =
      (w.perform b c.perform).map fun outcome => (outcome.1, outcome.2.untraced) := by
  cases hb : w.builders[b]? with
  | none =>
      simp [perform, bench?, untraced, hb]
  | some builder =>
      have hb' : w.untraced.builders[b]? = some builder.untraced := by
        simp [untraced, hb]
      have hbench : w.untraced.benchOf builder.untraced = (w.benchOf builder).untraced := rfl
      rw [perform_eq hb, perform_eq hb', hbench, c.perform_untraced, settle_untraced]
      rfl

end World

end Calls

namespace Script

section Computations

variable {α β : Type} {s : Session}

/-- At a session two computations do the same, tracing aside, the second without tracing. -/
def SameAt (s : Session) (act quiet : Resolved α) : Prop :=
  quiet s.untraced = ((act s).1, (act s).2.untraced)

/-- A sequence stops at the first reference that names nothing. -/
theorem resolved_bind_apply
    (act : Resolved α)
    (next : α → Resolved β)
    (s : Session) :
    (act >>= next) s =
      match act s with
      | (.ok a, s') => next a s'
      | (.error e, s') => (.error e, s') := by
  rcases h : act s with ⟨_ | _, s'⟩
  · simp only [bind, ExceptT.bind, ExceptT.mk, StateT.bind, h, ExceptT.bindCont]
    rfl
  · simp only [bind, ExceptT.bind, ExceptT.mk, StateT.bind, h, ExceptT.bindCont]

namespace SameAt

theorem pure
    (a : α) :
    SameAt s (pure a) (pure a) :=
  rfl

/-- Sequences of computations do the same if their parts do. -/
theorem bind
    {act quiet : Resolved α} {next next' : α → Resolved β}
    (hact : SameAt s act quiet)
    (hnext : ∀ a s', SameAt s' (next a) (next' a)) :
    SameAt s (act >>= next) (quiet >>= next') := by
  unfold SameAt at hact ⊢
  rw [resolved_bind_apply, resolved_bind_apply, hact]
  rcases act s with ⟨_ | a, s'⟩
  · rfl
  · exact hnext a s'

/-- What looks at the session does the same if what it goes on with does. -/
theorem get_bind
    {next next' : Session → Resolved β}
    (hnext : SameAt s (next s) (next' s.untraced)) :
    SameAt s (get >>= next) (get >>= next') :=
  hnext

theorem modify
    {change change' : Session → Session}
    (hchange : change' s.untraced = (change s).untraced) :
    SameAt s (modify change) (modify change') :=
  congrArg (Prod.mk (Except.ok PUnit.unit)) hchange

/-- Sequences of computations that may fail do the same if their parts do. -/
theorem attempt_bind
    {act quiet : Attempt α} {next next' : α → Attempt β}
    (hact : SameAt s act.run quiet.run)
    (hnext : ∀ a s', SameAt s' (next a).run (next' a).run) :
    SameAt s (act >>= next).run (quiet >>= next').run := by
  refine hact.bind fun result s' => ?_
  cases result with
  | ok a =>
      exact hnext a s'
  | error e =>
      exact .pure _

theorem attempt_get_bind
    {next next' : Session → Attempt β}
    (hnext : SameAt s (next s).run (next' s.untraced).run) :
    SameAt s (get >>= next).run (get >>= next').run :=
  hnext

/-- What cannot fail can be done in between. -/
theorem attempt_lift_bind
    {act quiet : Resolved α} {next next' : α → Attempt β}
    (hact : SameAt s act quiet)
    (hnext : ∀ a s', SameAt s' (next a).run (next' a).run) :
    SameAt s ((liftM act : Attempt α) >>= next).run ((liftM quiet : Attempt α) >>= next').run := by
  have hlift : SameAt s (liftM act : Attempt α).run (liftM quiet : Attempt α).run :=
    hact.bind fun a s' => .pure _
  exact hlift.attempt_bind hnext

end SameAt

end Computations

section Steps

variable {s : Session}

theorem scope_untraced
    (s : Session)
    (b : Nat) :
    s.untraced.scope b = s.scope b := by
  simp only [Session.scope, Session.untraced, World.untraced, List.getElem?_map]
  cases s.world.builders[b]? <;> rfl

/-- The same references are found, or missing. -/
theorem same_found_bind
    {α β : Type} {next next' : α → Attempt β}
    (what : Lookup α)
    (hnext : ∀ a, SameAt s (next a).run (next' a).run) :
    SameAt s (found what >>= next).run (found what >>= next').run := by
  cases what with
  | ok a =>
      exact hnext a
  | error missing =>
      rfl

theorem same_onBench
    (b : Nat)
    (c : Call) :
    SameAt s (onBench b c.perform).run (onBench b c.perform).run := by
  unfold onBench
  refine .attempt_get_bind ?_
  have hperform := s.world.perform_untraced b c
  rw [show s.untraced.world = s.world.untraced from rfl, hperform]
  cases s.world.perform b c.perform with
  | none =>
      rfl
  | some outcome =>
      obtain ⟨result, w⟩ := outcome
      cases result <;> rfl

/-- The answer to a question is the same. -/
theorem answer_untraced
    (scope : Scope)
    (builder : Builder)
    (q : Question) :
    q.answer scope builder.untraced = q.answer scope builder := by
  cases q <;> rfl

theorem same_action
    (b : Nat)
    (action : Action) :
    SameAt s (action.perform b).run (action.untraced.perform b).run := by
  unfold Action.perform
  refine .attempt_get_bind ?_
  rw [scope_untraced]
  refine same_found_bind _ fun scope => ?_
  cases action with
  | addModule spec =>
      refine same_found_bind _ fun m => ?_
      rfl
  | addBuilder home options =>
      refine same_found_bind _ fun _ => ?_
      have hbuilders : s.untraced.world.addBuilder home { options with trace := false } =
          (s.world.addBuilder home options).untraced := by
        simp [Session.untraced, World.untraced, World.addBuilder, Builder.untraced]
      have hlength : s.untraced.world.builders.length = s.world.builders.length :=
        List.length_map ..
      simp only [hbuilders, hlength]
      rfl
  | call c =>
      refine same_found_bind _ fun call => ?_
      exact (same_onBench b call).attempt_bind fun reply s' => .pure _
  | ask q =>
      have hbuilder : s.untraced.world.builders.getD b {} =
          (s.world.builders.getD b {}).untraced := by
        simp only [Session.untraced, World.untraced, List.getD_eq_getElem?_getD, List.getElem?_map]
        cases s.world.builders[b]? <;> rfl
      simp only [Action.untraced, hbuilder, answer_untraced]
      cases q.answer scope (s.world.builders.getD b {}) <;> rfl
  | edit e =>
      exact same_found_bind _ fun _ => rfl
  | log l =>
      rfl

theorem same_performKeeping
    (setting : Setting)
    (action : Action) :
    SameAt s (performKeeping setting action).run (performKeeping setting action.untraced).run := by
  refine (same_action setting.builder action).attempt_bind fun payload s' => ?_
  have hstore : s'.untraced.store setting.register payload.value? =
      (s'.store setting.register payload.value?).untraced := by
    cases hregister : setting.register <;> cases hvalue : payload.value? <;>
      simp [Session.store, Session.untraced]
  show (_, s'.untraced.store setting.register payload.value?) = (_, _)
  rw [hstore]
  rfl

/-- What becomes of a failure is the same. -/
theorem same_settle
    {act quiet : Attempt Payload}
    (hact : ∀ s, SameAt s act.run quiet.run)
    (mode : Mode) :
    SameAt s (mode.settle act) (mode.settle quiet) := by
  have hexpected : ∀ s, SameAt s (Reporting.expected act) (Reporting.expected quiet) := by
    intro s
    refine (hact s).bind fun result s' => ?_
    cases result <;> rfl
  cases mode with
  | direct =>
      refine (hact s).bind fun result s' => ?_
      cases result <;> rfl
  | report =>
      refine (hact s).bind fun result s' => ?_
      cases result <;> rfl
  | expected =>
      refine (hexpected s).bind fun result s' => ?_
      cases result <;> rfl
  | reported =>
      have hreported : SameAt s (Reporting.reported sink act) (Reporting.reported sink quiet) := by
        refine (hexpected s).bind fun result s' => ?_
        cases result <;> rfl
      refine hreported.bind fun result s' => ?_
      cases result <;> rfl

/-- The count that storage is asked for with is the same. -/
theorem countOf_untraced
    (s : Session)
    (setting : Setting)
    (action : Action) :
    countOf s.untraced setting action.untraced = countOf s setting action := by
  simp only [countOf, scope_untraced]
  cases s.scope setting.builder with
  | error missing =>
      rfl
  | ok scope =>
      cases action <;> rfl

theorem same_requireBuilder
    (b : Nat) :
    SameAt s (requireBuilder b) (requireBuilder b) := by
  refine .get_bind ?_
  have hbuilder : s.untraced.world.builders[b]?.isSome = s.world.builders[b]?.isSome := by
    simp [Session.untraced, World.untraced]
  rw [hbuilder]
  split <;> rfl

mutual

/-- A step of a group does the same. -/
theorem same_perform (s : Session) :
    ∀ step : Step, SameAt s step.perform.run step.untraced.perform.run
  | .single setting action => by
      simp only [Step.untraced, Step.perform]
      refine .attempt_get_bind ?_
      rw [countOf_untraced]
      exact (same_performKeeping setting action).attempt_bind fun payload s' => .pure _
  | .group setting steps => by
      simp only [Step.untraced, Step.perform]
      refine (same_requireBuilder setting.builder).attempt_lift_bind fun _ s' => ?_
      refine (same_performAll s' steps).attempt_lift_bind fun run s'' => ?_
      cases run.failure <;> rfl

/-- The steps of a group do the same. -/
theorem same_performAll (s : Session) :
    ∀ steps : List Step, SameAt s (performAll steps) (performAll (untracedSteps steps))
  | [] => rfl
  | step :: rest => by
      simp only [untracedSteps, performAll]
      refine (same_perform s step).bind fun result s' => ?_
      cases result with
      | error e =>
          rfl
      | ok answer =>
          exact (same_performAll s' rest).bind fun run s'' => .pure _

end

/-- A step by itself does the same under its mode. -/
theorem same_stepSettle
    (s : Session)
    (step : Step) :
    SameAt s step.settle step.untraced.settle := by
  cases step with
  | single setting action =>
      simp only [Step.untraced, Step.settle]
      refine .get_bind ?_
      rw [countOf_untraced]
      exact (same_settle (fun s => same_performKeeping setting action) setting.mode).bind
        fun outcome s' => .pure _
  | group setting steps =>
      simp only [Step.untraced, Step.settle]
      refine (same_requireBuilder setting.builder).bind fun _ s' => ?_
      refine (same_performAll s' steps).bind fun run s'' => ?_
      have hreplay : ∀ s, SameAt s run.replay.run run.replay.run := by
        intro s
        unfold GroupRun.replay
        cases run.failure <;> rfl
      exact (same_settle hreplay setting.mode).bind fun outcome s' => .pure _

/-- The view of a builder is the same. -/
theorem view_untraced
    (w : World)
    (b : Nat) :
    (w.untraced.bench? b).map CursorView.ofBench = (w.bench? b).map CursorView.ofBench := by
  simp only [World.bench?, World.untraced, List.getElem?_map]
  cases w.builders[b]? <;> rfl

end Steps

section Scripts

namespace Session

/-- A step answers the same without tracing, and leaves the same session. -/
theorem step_untraced
    (s : Session)
    (step : Step) :
    s.untraced.step step.untraced = ((s.step step).1.untraced, (s.step step).2.untraced) := by
  have hsame := same_stepSettle s step
  have hbuilder : step.untraced.setting.builder = step.setting.builder := by
    cases step <;> rfl
  unfold SameAt at hsame
  have hview := view_untraced (step.settle s).2.world step.setting.builder
  simp only [Session.step, hsame, hbuilder]
  rw [show (step.settle s).2.untraced.world = (step.settle s).2.world.untraced from rfl, hview]
  rfl

theorem run_untraced
    (s : Session)
    (steps : List Step) :
    s.untraced.run (steps.map Step.untraced) = (s.run steps).map Answer.untraced := by
  induction steps generalizing s with
  | nil =>
      rfl
  | cons step rest ih =>
      simp only [List.map_cons, run, step_untraced, ih]

theorem after_untraced
    (s : Session)
    (steps : List Step) :
    s.untraced.after (steps.map Step.untraced) = (s.after steps).untraced := by
  induction steps generalizing s with
  | nil =>
      rfl
  | cons step rest ih =>
      simp only [List.map_cons, after, step_untraced, ih]

/-- Whatever is done to the modules between the steps, it is done to the same modules. -/
theorem turns_untraced
    (s : Session)
    (turns : List ((List Module → List Module) × Step)) :
    s.untraced.turns (turns.map fun turn => (turn.1, turn.2.untraced)) =
      ((s.turns turns).1.map Answer.untraced, (s.turns turns).2.untraced) := by
  induction turns generalizing s with
  | nil =>
      rfl
  | cons turn rest ih =>
      obtain ⟨edit, step⟩ := turn
      have hchange : s.untraced.change edit = (s.change edit).untraced := rfl
      simp only [List.map_cons, turns, hchange, step_untraced, ih]

/--
Tracing changes nothing but the trace.

A script is run on a session, and without tracing: no builder of the session traces, and no step
sets up one that does.  Whichever builders trace in the first run, every step has the same answer in
the second, the view of its cursor included, except that no text is traced.  What the two runs
leave has the same code, so that it has the same listing, the same builders but for the option to
trace, and the same diagnostics and registers.  This is so for every script, and therefore after
every step of one.

The same holds when the modules are changed in any way before every step.
-/
theorem tracing_changes_nothing
    (s : Session)
    (steps : List Step) :
    let traced := s.after steps
    let quiet := s.untraced.after (steps.map Step.untraced)
    s.untraced.run (steps.map Step.untraced) = (s.run steps).map Answer.untraced ∧
    quiet.world.modules = traced.world.modules ∧
    quiet.world.builders = traced.world.builders.map Builder.untraced ∧
    quiet.world.trace = [] ∧
    quiet.log = traced.log ∧
    quiet.registers = traced.registers ∧
    ∀ turns,
      let traced := s.turns turns
      let quiet := s.untraced.turns (turns.map fun turn => (turn.1, turn.2.untraced))
      quiet.1 = traced.1.map Answer.untraced ∧
      quiet.2.world.modules = traced.2.world.modules ∧
      quiet.2.world.builders = traced.2.world.builders.map Builder.untraced ∧
      quiet.2.world.trace = [] ∧
      quiet.2.log = traced.2.log ∧
      quiet.2.registers = traced.2.registers := by
  intro traced quiet
  have hquiet : quiet = traced.untraced := s.after_untraced steps
  rw [hquiet]
  refine ⟨s.run_untraced steps, rfl, rfl, rfl, rfl, rfl, ?_⟩
  intro turns traced quiet
  have hquiet : quiet = (traced.1.map Answer.untraced, traced.2.untraced) := s.turns_untraced turns
  rw [hquiet]
  exact ⟨rfl, rfl, rfl, rfl, rfl, rfl⟩

/-- The session that does not trace is the one that the option to trace makes otherwise. -/
example (options : Options) :
    (start { options with trace := true }).untraced = start { options with trace := false } :=
  rfl

end Session

end Scripts

end Script

end ThreeAddress
