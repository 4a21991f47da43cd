import ThreeAddress.Proofs.Runs

/-!
# The trace is only written

No call looks at the trace, and a call that traces adds to its end.  So what was traced before a run
plays no part in it (`World.run_precede`), and the replies of a run and the code and the builders it
leaves do not depend on the trace it starts with.
-/

namespace ThreeAddress

section Benches

namespace Bench

/-- A bench with more traced before. -/
def precede
    (s : Bench)
    (records : List TraceRecord) :
    Bench :=
  { s with trace := records ++ s.trace }

variable (s : Bench) (records : List TraceRecord)

theorem record_precede
    (b : Block)
    (position : Nat)
    (i : Instr) :
    (s.precede records).record b position i = (s.record b position i).precede records := by
  by_cases htrace : s.builder.options.trace
  · simp [record, precede, htrace, function?, home]
  · simp [record, precede, htrace]

theorem insert_precede
    (site : Site)
    (i : Instr) :
    (s.precede records).insert site i = (s.insert site i).precede records :=
  let position := insertPosition site
  let placed := (s.commit site i fun b => b.insert position i).moveTo
    { s.builder.cursor with anchor := position + 1 }
  placed.record_precede records site.block position i

theorem close_precede
    (site : Site)
    (i : Instr) :
    (s.precede records).close site i = (s.close site i).precede records :=
  let placed := s.commit site i fun b => b.close i
  placed.record_precede records site.block site.block.size i

end Bench

/-- A function is applied to the end of a plan. -/
theorem Plan.map_bind
    {α β γ : Type} {change : β → γ}
    {next : α → Except Fault β} {next' : α → Except Fault γ}
    (check : Except Fault α)
    (hnext : ∀ a, next' a = (next a).map change) :
    (check >>= next') = (check >>= next).map change := by
  cases check with
  | ok a =>
      exact hnext a
  | error fault =>
      rfl

/-- A call comes to the same whatever was traced before. -/
theorem Call.plan_precede
    (s : Bench)
    (records : List TraceRecord)
    (c : Call) :
    c.plan (s.precede records) =
      (c.plan s).map fun outcome => (outcome.1, outcome.2.precede records) := by
  cases c with
  | startFunction name result params =>
      exact Plan.map_bind (s.admitFunction name params) fun _ => rfl
  | createBlock a label =>
      exact Plan.map_bind (Bench.admitBlock ((a.read? s.modules).getD default) label) fun _ => rfl
  | param a index =>
      exact Plan.map_bind (Bench.parameter ((a.read? s.modules).getD default) index) fun _ => rfl
  | position side v =>
      exact Plan.map_bind (s.locate side v) fun _ => rfl
  | positionAt edge a =>
      exact Plan.map_bind (s.entry edge a) fun _ => rfl
  | setLoc loc =>
      rfl
  | constant type x =>
      exact Plan.map_bind (Bench.constant type x) fun _ => rfl
  | emit e =>
      refine Plan.map_bind e.draft fun d => Plan.map_bind (s.openSite d.op) fun site => ?_
      let i := s.stamp site.block d
      exact congrArg (fun s' => Except.ok (Reply.value i.handle, s')) (s.insert_precede records site i)
  | terminate t =>
      let d := t.draft s.labelAt
      refine Plan.map_bind (s.openSite d.op) fun site => ?_
      let i := s.stamp site.block d
      exact congrArg (fun s' => Except.ok (Reply.instr i, s')) (s.close_precede records site i)

theorem Call.perform_precede
    (s : Bench)
    (records : List TraceRecord)
    (c : Call) :
    c.perform (s.precede records) = ((c.perform s).1, (c.perform s).2.precede records) := by
  rw [perform_eq_plan, perform_eq_plan, plan_precede]
  cases c.plan s <;> rfl

end Benches

namespace World

variable (w : World) (records : List TraceRecord)

/-- A world with more traced before. -/
def precede
    (w : World)
    (records : List TraceRecord) :
    World :=
  { w with trace := records ++ w.trace }

theorem call_precede
    (b : Nat)
    (c : Call) :
    (w.precede records).call b c = ((w.call b c).1, (w.call b c).2.precede records) := by
  cases hb : w.builders[b]? with
  | none =>
      have hb' : (w.precede records).builders[b]? = none := hb
      rw [call_absent hb, call_absent hb']
  | some builder =>
      have hb' : (w.precede records).builders[b]? = some builder := hb
      have hbench : (w.precede records).benchOf builder = (w.benchOf builder).precede records := rfl
      rw [call_eq hb, call_eq hb', hbench, c.perform_precede]
      rfl

theorem run_precede
    (calls : List (Nat × Call)) :
    (w.precede records).run calls = ((w.run calls).1, (w.after calls).precede records) := by
  induction calls generalizing w with
  | nil =>
      rfl
  | cons first rest ih =>
      obtain ⟨b, c⟩ := first
      simp only [run, call_precede, ih, after_cons]

end World

end ThreeAddress
