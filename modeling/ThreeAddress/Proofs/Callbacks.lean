import ThreeAddress.Builder.Reporting
import ThreeAddress.Proofs.Runs

/-!
# Callbacks

A callback makes calls on builders one after another, each after it has seen the replies to those
before, and ends with the first failure or with a value.  It is run in a workspace, a world and a
log of diagnostics beside it.

Run directly, a callback ends with its value or with the failure.  Run under `Reporting.expected`
the failure is a diagnostic instead, and under `Reporting.reported` the diagnostic is also written
to the log.  The three do the same to the world, which is what the calls up to the first failure do
to it (`Callback.ways_agree`).
-/

namespace ThreeAddress

section Definitions

/-- What makes calls on builders: it has a value, makes a call, or looks at the world. -/
inductive Callback (α : Type) where
  | done (value : α)
  | call (b : Nat) (c : Call) (next : Reply → Callback α)
  | look (next : World → Callback α)

/-- A world, and a log of diagnostics that is kept beside it. -/
structure Workspace where
  world : World
  log : Log

namespace Workspace

/-- Make a call in the world of the workspace. -/
def call
    (b : Nat)
    (c : Call) :
    ExceptT BuildError (StateM Workspace) Reply :=
  fun s => ((s.world.call b c).1, { s with world := (s.world.call b c).2 })

/-- Write a diagnostic to the log. -/
def report
    (d : Diagnostic) :
    StateM Workspace Unit :=
  modify fun s => { s with log := s.log.report d }

end Workspace

namespace Callback

variable {α : Type}

/-- Run a callback up to the first call that fails. -/
def run : Callback α → ExceptT BuildError (StateM Workspace) α
  | done value => pure value
  | call b c next => do
      let reply ← Workspace.call b c
      (next reply).run
  | look next => do
      let s ← get
      (next s.world).run

/-- The calls that a callback makes in a world, up to and with the first that fails. -/
def calls (w : World) : Callback α → List (Nat × Call)
  | done _ => []
  | call b c next =>
      (b, c) ::
        match (w.call b c).1 with
        | .ok reply => (next reply).calls (w.call b c).2
        | .error _ => []
  | look next => (next w).calls w

end Callback

/-- All calls of a run succeed. -/
def World.Succeeds
    (w : World)
    (calls : List (Nat × Call)) : Prop :=
  ∀ reply ∈ (w.run calls).1, reply.isOk = true

/-- The last call of a run fails with an error, at the location of its builder, and no other does. -/
def World.FailsLast
    (w : World)
    (calls : List (Nat × Call))
    (e : BuildError)
    (loc : SourceLoc) : Prop :=
  ∃ before b c builder, calls = before ++ [(b, c)] ∧ w.Succeeds before ∧
    (w.after before).builders[b]? = some builder ∧ builder.loc = loc ∧
    ((w.after before).call b c).1 = .error e ∧ w.after calls = w.after before

/-- The text is a message up to its first NUL character. -/
def ReadsUpToNul
    (message text : String) : Prop :=
  ∃ rest, message.toList = text.toList ++ rest ∧ '\x00' ∉ text.toList ∧
    ∀ c ∈ rest.head?, c = '\x00'

/-- The kinds of failures with their words. -/
def FaultKind.words : List (FaultKind × String) :=
  [(.typeMismatch, "type-mismatch"), (.alreadyTerminated, "already-terminated"),
    (.invalidArgument, "invalid-argument"), (.notFound, "not-found"),
    (.noInsertPoint, "no-insert-point")]

/-- A diagnostic says what a failure was, after the word for its kind, and where. -/
structure Diagnostic.Describes
    (d : Diagnostic)
    (e : BuildError)
    (loc : SourceLoc) : Prop where
  severity : d.severity = .error
  message : ∃ word text, (e.kind, word) ∈ FaultKind.words ∧ ReadsUpToNul e.message text ∧
    d.message = word ++ ": " ++ text
  loc : d.loc = loc

/-- A log after one more diagnostic, which is the last and is counted; nothing else changes. -/
structure Log.Adds
    (log : Log)
    (d : Diagnostic)
    (log' : Log) : Prop where
  diagnostics : log'.diagnostics = log.diagnostics ++ [d]
  count : ∀ severity, log'.tally.count severity =
    log.tally.count severity + if severity = d.severity then 1 else 0
  fileName : ∀ file, log'.fileName file = log.fileName file

end Definitions

section Diagnostics

/-- What is seen of the message of a failure is the message up to its first NUL character. -/
theorem BuildError.readsUpToNul_what
    (e : BuildError) :
    ReadsUpToNul e.message e.what := by
  refine ⟨e.message.toList.dropWhile (· != '\x00'), ?_, ?_, ?_⟩
  · simp [what, List.takeWhile_append_dropWhile]
  · intro hmem
    have hall := List.all_takeWhile (p := (· != '\x00')) (l := e.message.toList)
    simp only [what, String.toList_ofList] at hmem
    simpa using List.all_eq_true.mp hall _ hmem
  · intro c hc
    have hhead := List.head?_dropWhile_not (· != '\x00') e.message.toList
    rw [hc] at hhead
    simpa using hhead

/-- The word for a kind of failures is the one in the table. -/
theorem FaultKind.mem_words
    (kind : FaultKind) :
    (kind, kind.text) ∈ words := by
  cases kind <;> decide

theorem BuildError.toDiagnostic_describes
    (e : BuildError) :
    e.toDiagnostic.Describes e e.loc :=
  ⟨rfl, ⟨e.kind.text, e.what, e.kind.mem_words, e.readsUpToNul_what, rfl⟩, rfl⟩

theorem Log.report_adds
    (log : Log)
    (d : Diagnostic) :
    log.Adds d (log.report d) where
  diagnostics := rfl
  count severity := by
    obtain ⟨severity', message, loc⟩ := d
    cases severity <;> cases severity' <;> rfl
  fileName _ := rfl

end Diagnostics

section Failures

namespace World

variable {w : World} {b : Nat} {c : Call} {e : BuildError}

/-- A call that fails does so at the location of its builder. -/
theorem exists_builder_of_error
    (herror : (w.call b c).1 = .error e) :
    ∃ builder, w.builders[b]? = some builder ∧ builder.loc = e.loc := by
  have hcase := w.callCase b c
  generalize w.call b c = result at hcase herror
  cases hcase with
  | absent hb =>
      cases herror
  | done hb hstep =>
      cases herror
  | failed hb =>
      cases herror
      exact ⟨_, hb, rfl⟩

theorem succeeds_nil
    (w : World) :
    w.Succeeds [] :=
  nofun

theorem succeeds_cons
    {reply : Reply} {calls : List (Nat × Call)}
    (hok : (w.call b c).1 = .ok reply)
    (hcalls : (w.call b c).2.Succeeds calls) :
    w.Succeeds ((b, c) :: calls) := by
  intro r hr
  have hr : r ∈ (w.call b c).1 :: ((w.call b c).2.run calls).1 := hr
  rw [hok] at hr
  rcases List.mem_cons.mp hr with rfl | hr
  · rfl
  · exact hcalls r hr

/-- A call that fails is the last of a run of its own. -/
theorem failsLast_singleton
    (herror : (w.call b c).1 = .error e) :
    w.FailsLast [(b, c)] e e.loc := by
  obtain ⟨builder, hb, hloc⟩ := exists_builder_of_error herror
  exact ⟨[], b, c, builder, rfl, w.succeeds_nil, hb, hloc, herror, call_eq_self_of_error herror⟩

theorem failsLast_cons
    {reply : Reply} {calls : List (Nat × Call)} {loc : SourceLoc}
    (hok : (w.call b c).1 = .ok reply)
    (hcalls : (w.call b c).2.FailsLast calls e loc) :
    w.FailsLast ((b, c) :: calls) e loc := by
  obtain ⟨before, b', c', builder, rfl, hbefore, hb, hloc, herror, hafter⟩ := hcalls
  exact ⟨(b, c) :: before, b', c', builder, rfl, succeeds_cons hok hbefore, hb, hloc, herror,
    hafter⟩

/-- A run whose last call fails does not succeed. -/
theorem FailsLast.not_succeeds
    {calls : List (Nat × Call)} {loc : SourceLoc}
    (hfails : w.FailsLast calls e loc) :
    ¬ w.Succeeds calls := by
  obtain ⟨before, b, c, builder, rfl, _, _, _, herror, _⟩ := hfails
  intro hsucceeds
  have hlast : Except.error e ∈ (w.run (before ++ [(b, c)])).1 := by
    rw [replies_append, ← herror]
    exact List.mem_append_right _ List.mem_cons_self
  cases hsucceeds _ hlast

end World

end Failures

section Ways

namespace Callback

variable {α : Type} {w : World} {b : Nat} {c : Call} {next : Reply → Callback α}

theorem calls_of_ok
    {reply : Reply}
    (hok : (w.call b c).1 = .ok reply) :
    (call b c next).calls w = (b, c) :: (next reply).calls (w.call b c).2 := by
  simp only [calls, hok]

theorem calls_of_error
    {e : BuildError}
    (herror : (w.call b c).1 = .error e) :
    (call b c next).calls w = [(b, c)] := by
  simp only [calls, herror]

/-- After a call that succeeds a callback goes on with the reply in the world after the call. -/
theorem run_of_ok
    {reply : Reply}
    (hok : (w.call b c).1 = .ok reply)
    (log : Log) :
    (call b c next).run ⟨w, log⟩ = (next reply).run ⟨(w.call b c).2, log⟩ := by
  simp only [run, Workspace.call, bind, ExceptT.bind, ExceptT.mk, StateT.bind, hok]
  rfl

/-- With a call that fails a callback ends. -/
theorem run_of_error
    {e : BuildError}
    (herror : (w.call b c).1 = .error e)
    (log : Log) :
    (call b c next).run ⟨w, log⟩ = (.error e, ⟨(w.call b c).2, log⟩) := by
  simp only [run, Workspace.call, bind, ExceptT.bind, ExceptT.mk, StateT.bind, herror]
  rfl

/-- A callback does to the world what its calls do, and nothing to the log. -/
theorem run_workspace
    (callback : Callback α)
    (w : World)
    (log : Log) :
    (callback.run ⟨w, log⟩).2 = ⟨w.after (callback.calls w), log⟩ := by
  induction callback generalizing w with
  | done value =>
      rfl
  | call b c next ih =>
      cases hcall : (w.call b c).1 with
      | ok reply =>
          rw [run_of_ok hcall, calls_of_ok hcall]
          exact ih reply _
      | error e =>
          rw [run_of_error hcall, calls_of_error hcall]
          rfl
  | look next ih =>
      exact ih w w

/-- A callback ends with a value if its calls succeed, and with the failure of the last if not. -/
theorem run_result
    (callback : Callback α)
    (w : World)
    (log : Log) :
    match (callback.run ⟨w, log⟩).1 with
    | .ok _ => w.Succeeds (callback.calls w)
    | .error e => w.FailsLast (callback.calls w) e e.loc := by
  induction callback generalizing w with
  | done value =>
      exact w.succeeds_nil
  | call b c next ih =>
      cases hcall : (w.call b c).1 with
      | ok reply =>
          rw [run_of_ok hcall, calls_of_ok hcall]
          have ih := ih reply (w.call b c).2
          cases hrun : ((next reply).run ⟨(w.call b c).2, log⟩).1 with
          | ok a =>
              rw [hrun] at ih
              exact World.succeeds_cons hcall ih
          | error e =>
              rw [hrun] at ih
              exact World.failsLast_cons hcall ih
      | error e =>
          rw [run_of_error hcall, calls_of_error hcall]
          exact World.failsLast_singleton hcall
  | look next ih =>
      exact ih w w

/-- A callback under `Reporting.expected` ends as the direct run does, in its own words. -/
theorem expected_run
    (callback : Callback α)
    (s : Workspace) :
    Reporting.expected callback.run s =
      ((callback.run s).1.mapError BuildError.toDiagnostic, (callback.run s).2) := by
  simp only [Reporting.expected, bind, StateT.bind, ExceptT.run]
  cases callback.run s with
  | mk result s' =>
      cases result <;> rfl

/-- Under `Reporting.reported` the diagnostic of a failure is written to the log as well. -/
theorem reported_run
    (callback : Callback α)
    (s : Workspace) :
    Reporting.reported Workspace.report callback.run s =
      match callback.run s with
      | (.ok a, s') => (.ok a, s')
      | (.error e, s') => (.error e.toDiagnostic, { s' with log := s'.log.reportFailure e }) := by
  have hexpected := callback.expected_run s
  simp only [Reporting.reported, bind, StateT.bind, hexpected]
  cases callback.run s with
  | mk result s' =>
      cases result <;> rfl

/--
The ways of running a callback agree.

In any workspace the direct run and the two others do to the world what the calls up to the first
failure do.  Under `Reporting.expected` there is a value exactly if all these calls succeed, and it
is the value of the direct run.  Otherwise the direct run ends with the failure of the last call, a
diagnostic describes it, and the world is the one before that call.  The result under
`Reporting.reported` is the same; the log changes only if there is a failure, and then as reporting
the failure changes it.
-/
theorem ways_agree
    (callback : Callback α)
    (w : World)
    (log : Log) :
    let calls := callback.calls w
    let direct := callback.run ⟨w, log⟩
    let expected := Reporting.expected callback.run ⟨w, log⟩
    let reported := Reporting.reported Workspace.report callback.run ⟨w, log⟩
    direct.2 = ⟨w.after calls, log⟩ ∧ expected.2 = ⟨w.after calls, log⟩ ∧
      reported.1 = expected.1 ∧ reported.2.world = w.after calls ∧
      ((∃ a, expected.1 = .ok a) ↔ w.Succeeds calls) ∧
      match direct.1 with
      | .ok a => expected.1 = .ok a ∧ reported.2.log = log
      | .error e => ∃ d loc, expected.1 = .error d ∧ d.Describes e loc ∧
          w.FailsLast calls e loc ∧
          reported.2.log = log.reportFailure e ∧ log.Adds d reported.2.log := by
  intro calls direct expected reported
  have hworkspace := callback.run_workspace w log
  have hresult := callback.run_result w log
  have hexpected := callback.expected_run ⟨w, log⟩
  have hreported := callback.reported_run ⟨w, log⟩
  simp only [direct, expected, reported, calls, hexpected, hreported]
  generalize callback.run ⟨w, log⟩ = outcome at hworkspace hresult ⊢
  obtain ⟨result, s⟩ := outcome
  cases hworkspace
  cases result with
  | ok a =>
      exact ⟨rfl, rfl, rfl, rfl, ⟨fun _ => hresult, fun _ => ⟨a, rfl⟩⟩, rfl, rfl⟩
  | error e =>
      have hfails : w.FailsLast (callback.calls w) e e.loc := hresult
      refine ⟨rfl, rfl, rfl, rfl, iff_of_false ?_ hfails.not_succeeds, ?_⟩
      · rintro ⟨_, ⟨⟩⟩
      · exact ⟨e.toDiagnostic, e.loc, rfl, e.toDiagnostic_describes, hfails, rfl,
          log.report_adds e.toDiagnostic⟩

/-- A callback that starts a function twice, the second time at another location. -/
def startTwice : Callback Reply :=
  .call 0 (.startFunction "f" Ty.void []) fun _ =>
    .call 0 (.setLoc ⟨1, 4, 9⟩) fun _ =>
      .call 0 (.startFunction "f" Ty.void []) .done

/--
The second start fails at the new location: both ways end with the same diagnostic, one of them
writes it to the log, and the function that was started stays.
-/
theorem startTwice_ways_agree :
    let expected := Reporting.expected startTwice.run ⟨World.pair, {}⟩
    let reported := Reporting.reported Workspace.report startTwice.run ⟨World.pair, {}⟩
    let d : Diagnostic :=
      ⟨.error, "invalid-argument: startFunction: function 'f' already exists", ⟨1, 4, 9⟩⟩
    expected.1 = .error d ∧ reported.1 = .error d ∧
      reported.2.log.diagnostics = [d] ∧ reported.2.log.tally.count .error = 1 ∧
      ¬ World.pair.Succeeds (startTwice.calls World.pair) ∧
      expected.2.world = World.pair.after (startTwice.calls World.pair) ∧
      expected.2.world.modules.map (fun m => m.functions.map Function.name) = [["f"]] := by
  intro expected reported d
  obtain ⟨_, hexpected, hsame, _, hsucceeds, hfails⟩ := startTwice.ways_agree World.pair {}
  have hd : expected.1 = .error d := rfl
  have hsame : reported.1 = .error d := hsame.trans hd
  obtain ⟨d', loc, hd', _, _, _, hadds⟩ := hfails
  have hlast : d' = d := Except.error.inj (hd'.symm.trans hd)
  subst hlast
  refine ⟨hd, hsame, hadds.diagnostics, hadds.count .error, ?_, ?_, rfl⟩
  · rw [← hsucceeds]
    rintro ⟨a, ha⟩
    cases hd.symm.trans ha
  · exact congrArg Workspace.world hexpected

end Callback

end Ways

end ThreeAddress
