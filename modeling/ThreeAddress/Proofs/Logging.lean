import ThreeAddress.Proofs.Callbacks

/-!
# Logs and their histories

A client makes calls on builders and keeps a log.  It gives names to files, and it reports
diagnostics: its own, those of failures that it has caught, and those of the failures of its parts
that run under `Reporting.reported`.  Such a part is a client itself, so they may be nested, and
everything may be done in any order.

The history of a client lists the names that were given and the diagnostics that were reported.  The
log is what the history makes of the log before (`Client.run_log`).  So what a log holds, counts and
prints can be said in terms of the history alone (`Client.log_follows_history`): the diagnostics are
those reported, in order, and a file is printed under the last name that it was given, be it before
the diagnostic about it was reported or after.
-/

namespace ThreeAddress

section Histories

/-- What is done to a log: a file is given a name, or a diagnostic is reported. -/
inductive Log.Entry where
  | named (file : Nat) (name : String)
  | reported (d : Diagnostic)

namespace Log

/-- The log after one more entry of its history. -/
def enter
    (log : Log) :
    Entry → Log
  | .named file name => log.nameFile file name
  | .reported d => log.report d

/-- The log after what a history says was done. -/
def extend
    (log : Log)
    (h : List Entry) :
    Log :=
  h.foldl enter log

/-- The diagnostics that were reported, in order. -/
def reports
    (h : List Entry) :
    List Diagnostic :=
  h.filterMap fun
    | .named .. => none
    | .reported d => some d

/-- A history gives no name to a file. -/
def Unnamed
    (file : Nat)
    (h : List Entry) : Prop :=
  ∀ name, Entry.named file name ∉ h

/-- The last name that a history gives to a file; it is empty if the file was never named. -/
inductive LatestName (file : Nat) : List Entry → String → Prop where
  | given (before later : List Entry) (name : String) (hlater : Unnamed file later) :
      LatestName file (before ++ .named file name :: later) name
  | never (h : List Entry) (hunnamed : Unnamed file h) :
      LatestName file h ""

/-- A log holds, counts and prints what a history says. -/
structure Follows
    (log : Log)
    (h : List Entry) : Prop where
  diagnostics : log.diagnostics = reports h
  count : ∀ severity,
    log.tally.count severity = log.diagnostics.countP fun d => d.severity = severity
  count_sum :
    log.tally.count .note + log.tally.count .warning + log.tally.count .error =
      log.diagnostics.length
  hasErrors : log.hasErrors = true ↔ ∃ d ∈ log.diagnostics, d.severity = .error
  fileName : ∀ file name, log.fileName file = name ↔ LatestName file h name
  /-- File zero is printed without a name, any other file under its last one. -/
  render : ∃ names : Nat → String, names 0 = "" ∧
    (∀ file, file ≠ 0 → LatestName file h (names file)) ∧
    log.render = String.join (log.diagnostics.map fun d => d.render (names d.loc.file))

end Log

end Histories

namespace Log

section Extensions

variable (log : Log) (h h' : List Entry)

theorem extend_append :
    log.extend (h ++ h') = (log.extend h).extend h' :=
  List.foldl_append

theorem extend_cons
    (entry : Entry) :
    log.extend (entry :: h) = (log.enter entry).extend h :=
  rfl

theorem reports_cons_reported
    (d : Diagnostic)
    (h : List Entry) :
    reports (.reported d :: h) = d :: reports h :=
  rfl

/-- What was reported is added at the end of a log. -/
theorem diagnostics_extend :
    (log.extend h).diagnostics = log.diagnostics ++ reports h := by
  induction h generalizing log with
  | nil =>
      exact (List.append_nil _).symm
  | cons entry h ih =>
      rw [extend_cons, ih]
      cases entry with
      | named file name =>
          rfl
      | reported d =>
          rw [reports_cons_reported, enter, report, List.append_assoc]
          rfl

theorem reports_eq_nil
    {h : List Entry}
    (hsilent : ∀ d, .reported d ∉ h) :
    reports h = [] := by
  refine List.filterMap_eq_nil_iff.mpr fun entry hentry => ?_
  cases entry with
  | named file name =>
      rfl
  | reported d =>
      exact absurd hentry (hsilent d)

/-- The count of a severity grows by the number of such diagnostics that were reported. -/
theorem count_extend
    (severity : Severity) :
    (log.extend h).tally.count severity =
      log.tally.count severity + (reports h).countP fun d => d.severity = severity := by
  induction h generalizing log with
  | nil =>
      rfl
  | cons entry h ih =>
      rw [extend_cons, ih]
      cases entry with
      | named file name =>
          rfl
      | reported d =>
          have hcount := (log.report_adds d).count severity
          rw [enter, hcount, reports_cons_reported, List.countP_cons]
          simp only [decide_eq_true_eq, @eq_comm _ severity]
          omega

/-- Reporting does not change the names of files, nor does naming other files. -/
theorem fileName_extend
    {h : List Entry} {file : Nat}
    (hunnamed : Unnamed file h) :
    (log.extend h).fileName file = log.fileName file := by
  induction h generalizing log with
  | nil =>
      rfl
  | cons entry h ih =>
      have hrest : Unnamed file h := fun name hmem => hunnamed name (List.mem_cons_of_mem _ hmem)
      rw [extend_cons, ih _ hrest]
      cases entry with
      | named other name =>
          have hne : file ≠ other := by
            rintro rfl
            exact hunnamed name List.mem_cons_self
          simp [enter, nameFile, fileName, List.lookup_cons, beq_eq_false_iff_ne.mpr hne]
      | reported d =>
          rfl

end Extensions

section Names

variable {file : Nat} {h : List Entry} {name : String}

/-- A history gives a last name to every file. -/
theorem exists_latestName
    (file : Nat)
    (h : List Entry) :
    ∃ name, LatestName file h name := by
  induction h with
  | nil =>
      exact ⟨"", .never [] nofun⟩
  | cons entry h ih =>
      obtain ⟨name, hname⟩ := ih
      cases hname with
      | given before later name hlater =>
          exact ⟨name, .given (entry :: before) later name hlater⟩
      | never h hunnamed =>
          by_cases hentry : ∃ name, entry = .named file name
          · obtain ⟨name, rfl⟩ := hentry
            exact ⟨name, .given [] h name hunnamed⟩
          · refine ⟨"", .never _ fun name hmem => ?_⟩
            rcases List.mem_cons.mp hmem with heq | hmem
            · exact hentry ⟨name, heq.symm⟩
            · exact hunnamed name hmem

theorem LatestName.fileName_eq
    (hname : LatestName file h name) :
    (extend {} h).fileName file = name := by
  cases hname with
  | given before later name hlater =>
      -- what was done before the name was given has no part in the answer
      rw [extend_append, extend_cons, fileName_extend _ hlater]
      simp [enter, nameFile, fileName]
  | never h hunnamed =>
      exact fileName_extend {} hunnamed

/-- What a log answers for a file is the last name that its history gives to the file. -/
theorem fileName_eq_iff :
    (extend {} h).fileName file = name ↔ LatestName file h name := by
  refine ⟨?_, LatestName.fileName_eq⟩
  rintro rfl
  obtain ⟨name, hname⟩ := exists_latestName file h
  rwa [hname.fileName_eq]

end Names

section Contents

/-- The diagnostics are counted completely: each has one of the three severities. -/
theorem countP_severity_sum
    (ds : List Diagnostic) :
    (ds.countP fun d => d.severity = .note) + (ds.countP fun d => d.severity = .warning) +
      (ds.countP fun d => d.severity = .error) = ds.length := by
  induction ds with
  | nil =>
      rfl
  | cons d ds ih =>
      cases hd : d.severity <;> simp [hd] <;> omega

/-- A log that was empty follows the history of what was done to it. -/
theorem follows_extend
    (h : List Entry) :
    (extend {} h).Follows h := by
  have hdiagnostics : (extend {} h).diagnostics = reports h := diagnostics_extend {} h
  have hcount : ∀ severity, (extend {} h).tally.count severity =
      (extend {} h).diagnostics.countP fun d => d.severity = severity := by
    intro severity
    rw [count_extend, hdiagnostics]
    cases severity <;> exact Nat.zero_add _
  refine ⟨hdiagnostics, hcount, ?_, ?_, fun _ _ => fileName_eq_iff, ?_⟩
  · rw [hcount, hcount, hcount, countP_severity_sum]
  · have herrors : (extend {} h).tally.errors = _ := hcount .error
    simp [hasErrors, herrors]
  · -- which name is printed depends on the file of a location alone
    refine ⟨fun file => (extend {} h).placeName { file }, rfl, fun file hfile => ?_, rfl⟩
    have hvalid : SourceLoc.isValid { file } = true := bne_iff_ne.mpr hfile
    simpa only [placeName, hvalid, if_true] using fileName_eq_iff.mp rfl

end Contents

end Log

section Clients

/--
What uses builders and a log.

A client ends with a value, with a failure, or with an exception of another kind.  Before that it
makes calls, whose failures it may catch, looks at what there is, names files, and reports
diagnostics.  A part of it that it attempts is run under `Reporting.reported`.
-/
inductive Client (ε : Type) : Type → Type 1 where
  | done {α : Type} (value : α) : Client ε α
  | fail {α : Type} (e : BuildError) : Client ε α
  | escape {α : Type} (x : ε) : Client ε α
  | call {α : Type} (b : Nat) (c : Call) (next : Except BuildError Reply → Client ε α) :
      Client ε α
  | look {α : Type} (next : Workspace → Client ε α) : Client ε α
  | nameFile {α : Type} (file : Nat) (name : String) (next : Client ε α) : Client ε α
  | report {α : Type} (d : Diagnostic) (next : Client ε α) : Client ε α
  | reportFailure {α : Type} (e : BuildError) (next : Client ε α) : Client ε α
  | attempt {α β : Type} (part : Client ε β)
      (next : Except ε (Except Diagnostic β) → Client ε α) : Client ε α

namespace Workspace

/-- Change the log of the workspace. -/
def changeLog
    (change : Log → Log) :
    StateM Workspace Unit :=
  modify fun s => { s with log := change s.log }

end Workspace

namespace Client

variable {ε α β : Type}

/-- Run a computation; its failure becomes a diagnostic, which is written to the log. -/
def attempted
    (act : ExceptT BuildError (ExceptT ε (StateM Workspace)) β) :
    StateM Workspace (Except ε (Except Diagnostic β)) :=
  (Reporting.reported (fun d => liftM (Workspace.report d)) act).run

/-- Run a client in a workspace. -/
def run {α : Type} : Client ε α → ExceptT BuildError (ExceptT ε (StateM Workspace)) α
  | done value => pure value
  | fail e => throwThe BuildError e
  | escape x => throwThe ε x
  | call b c next => do
      let reply ← (Workspace.call b c).run
      (next reply).run
  | look next => do
      let s ← get
      (next s).run
  | nameFile file name next => do
      Workspace.changeLog fun log => log.nameFile file name
      next.run
  | report d next => do
      Workspace.report d
      next.run
  | reportFailure e next => do
      Workspace.changeLog fun log => log.reportFailure e
      next.run
  | attempt part next => do
      let outcome ← attempted part.run
      (next outcome).run

/-- What the way in which an attempted part ended adds to the history. -/
def entriesOf : Except ε (Except BuildError β) → List Log.Entry
  | .ok (.error e) => [.reported e.toDiagnostic]
  | _ => []

/-- What a client does to the log, in order. -/
def history {α : Type} : Client ε α → Workspace → List Log.Entry
  | done _, _ => []
  | fail _, _ => []
  | escape _, _ => []
  | call b c next, s =>
      (next (s.world.call b c).1).history { s with world := (s.world.call b c).2 }
  | look next, s => (next s).history s
  | nameFile file name next, s =>
      .named file name :: next.history { s with log := s.log.nameFile file name }
  | report d next, s => .reported d :: next.history { s with log := s.log.report d }
  | reportFailure e next, s =>
      .reported e.toDiagnostic :: next.history { s with log := s.log.reportFailure e }
  | attempt part next, s =>
      let (outcome, s') := attempted part.run s
      part.history s ++ entriesOf (part.run s).1 ++ (next outcome).history s'

/-- An attempted computation does to the log what it does by itself, and its failure is reported. -/
theorem attempted_log
    (act : ExceptT BuildError (ExceptT ε (StateM Workspace)) β)
    (s : Workspace) :
    (attempted act s).2.log = (act s).2.log.extend (entriesOf (act s).1) := by
  simp only [attempted, Reporting.reported, Reporting.expected, bind, ExceptT.bind, ExceptT.run,
    ExceptT.mk, StateT.bind]
  cases act s with
  | mk result s' =>
      rcases result with x | e | a <;> rfl

/-- The log after a client is what its history makes of the log before. -/
theorem run_log
    (client : Client ε α)
    (s : Workspace) :
    (client.run s).2.log = s.log.extend (client.history s) := by
  induction client generalizing s with
  | done value =>
      rfl
  | fail e =>
      rfl
  | escape x =>
      rfl
  | call b c next ih =>
      exact ih _ { s with world := (s.world.call b c).2 }
  | look next ih =>
      exact ih s s
  | nameFile file name next ih =>
      exact ih { s with log := s.log.nameFile file name }
  | report d next ih =>
      exact ih { s with log := s.log.report d }
  | reportFailure e next ih =>
      exact ih { s with log := s.log.reportFailure e }
  | attempt part next ihpart ihnext =>
      -- the failure of the part is reported after all that the part itself does to the log
      have hnext := ihnext (attempted part.run s).1 (attempted part.run s).2
      rw [attempted_log, ihpart, ← Log.extend_append, ← Log.extend_append,
        ← List.append_assoc] at hnext
      exact hnext

/--
A log loses nothing and counts everything.

After a client that starts with an empty log, the log holds the diagnostics that were reported, in
order; it counts those of each severity, and it has errors exactly if one of them is an error.  What
is printed is the text of each diagnostic, in the same order, with the last name that was given to
its file, and without a name if the file is zero or was never named.

As long as nothing is reported later the diagnostics and the counts stay, whatever names are given;
and as long as a file is given no name later its name stays, whatever is reported.
-/
theorem log_follows_history
    (client : Client ε α)
    (w : World) :
    let s := (client.run ⟨w, {}⟩).2
    s.log.Follows (client.history ⟨w, {}⟩) ∧
      ∀ {β : Type} (later : Client ε β),
        let s' := (later.run s).2
        s'.log.Follows (client.history ⟨w, {}⟩ ++ later.history s) ∧
        ((∀ d, .reported d ∉ later.history s) →
          s'.log.diagnostics = s.log.diagnostics ∧
            ∀ severity, s'.log.tally.count severity = s.log.tally.count severity) ∧
        ∀ file, Log.Unnamed file (later.history s) →
          s'.log.fileName file = s.log.fileName file := by
  intro s
  have hlog : s.log = Log.extend {} (client.history ⟨w, {}⟩) := client.run_log ⟨w, {}⟩
  refine ⟨hlog ▸ Log.follows_extend _, fun {β} later => ?_⟩
  intro s'
  have hlater : s'.log = s.log.extend (later.history s) := later.run_log s
  refine ⟨?_, fun hsilent => ?_, fun file hunnamed => ?_⟩
  · rw [hlater, hlog, ← Log.extend_append]
    exact Log.follows_extend _
  · have hreports := Log.reports_eq_nil hsilent
    rw [hlater]
    refine ⟨?_, fun severity => ?_⟩
    · rw [Log.diagnostics_extend, hreports, List.append_nil]
    · rw [Log.count_extend, hreports, List.countP_nil, Nat.add_zero]
  · rw [hlater]
    exact Log.fileName_extend _ hunnamed

/-- A part that reports a note, and then fails because its builder stands nowhere. -/
def misplacedReturn : Client Empty Unit :=
  .call 0 (.setLoc ⟨1, 4, 9⟩) fun _ =>
  .report ⟨.note, "defined here", ⟨0, 2, 7⟩⟩ <|
  .call 0 (.terminate (.ret none)) fun
    | .ok _ => .done ()
    | .error e => .fail e

/--
A client that names file one after it reported a diagnostic about it, and names it again later; it
names file zero too.  It attempts a part that fails, and it catches and reports another failure.
-/
def lateNames : Client Empty Unit :=
  .report ⟨.warning, "unused block", ⟨1, 5, 0⟩⟩ <|
  .nameFile 1 "draft.bas" <|
  .nameFile 0 "nowhere.bas" <|
  .attempt misplacedReturn fun _ =>
  .nameFile 1 "loop.bas" <|
  .call 1 (.startFunction "" Ty.void []) fun
    | .ok _ => .done ()
    | .error e => .reportFailure e (.done ())

/-- A client that only gives a name. -/
def rename : Client Empty Unit :=
  .nameFile 1 "other.bas" (.done ())

theorem lateNames_log_follows :
    let s := (lateNames.run ⟨World.pair, {}⟩).2
    s.log.Follows
        [.reported ⟨.warning, "unused block", ⟨1, 5, 0⟩⟩,
          .named 1 "draft.bas",
          .named 0 "nowhere.bas",
          .reported ⟨.note, "defined here", ⟨0, 2, 7⟩⟩,
          .reported ⟨.error, "no-insert-point: ret: insert point not set", ⟨1, 4, 9⟩⟩,
          .named 1 "loop.bas",
          .reported ⟨.error,
            "invalid-argument: startFunction: function name cannot be empty", {}⟩] ∧
      s.log.render =
        "loop.bas:5: warning: unused block\n" ++
        "2:7: note: defined here\n" ++
        "loop.bas:4:9: error: no-insert-point: ret: insert point not set\n" ++
        "error: invalid-argument: startFunction: function name cannot be empty\n" ∧
      (let s' := (rename.run s).2
       s'.log.diagnostics = s.log.diagnostics ∧
         ∀ severity, s'.log.tally.count severity = s.log.tally.count severity) ∧
      (misplacedReturn.run s).2.log.fileName 1 = s.log.fileName 1 := by
  have hlog := lateNames.log_follows_history World.pair
  have hreported : misplacedReturn.history (lateNames.run ⟨World.pair, {}⟩).2 =
      [.reported ⟨.note, "defined here", ⟨0, 2, 7⟩⟩] := rfl
  refine ⟨hlog.1, rfl, (hlog.2 rename).2.1 ?_, (hlog.2 misplacedReturn).2.2 1 ?_⟩
  · simp [rename, history]
  · simp [hreported, Log.Unnamed]

end Client

end Clients

end ThreeAddress
