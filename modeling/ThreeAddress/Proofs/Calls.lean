import ThreeAddress.Builder.World

/-!
# What a call does

A call first makes its checks, then its change.  `Call.plan` is the outcome of both, and
`Call.perform_eq_plan` says that making a call follows it: a fault of the plan is raised at the
builder's location and leaves the bench as it was.

`Bench.Step` states, one constructor for each call, what the change and the reply are when every
check passes.  `Call.perform_cases` says that nothing else happens, and `World.callCase` is the same
statement about a call in a world.

Whatever is said later about calls is said by these, so the text of a call is opened here only.
-/

namespace ThreeAddress

section Computations

namespace Build

variable {α β : Type}

@[simp]
theorem pure_apply
    (a : α)
    (s : Bench) :
    (pure a : Build α) s = (.ok a, s) :=
  rfl

@[simp]
theorem get_apply
    (s : Bench) :
    (get : Build Bench) s = (.ok s, s) :=
  rfl

@[simp]
theorem set_apply
    (s s' : Bench) :
    (set s' : Build PUnit) s = (.ok ⟨⟩, s') :=
  rfl

@[simp]
theorem modify_apply
    (change : Bench → Bench)
    (s : Bench) :
    (modify change : Build PUnit) s = (.ok ⟨⟩, change s) :=
  rfl

/-- A sequence stops at the first failure, with what was done before it. -/
@[simp]
theorem bind_apply
    (act : Build α)
    (next : α → Build β)
    (s : Bench) :
    (act >>= next) s =
      match act s with
      | (.ok a, s') => next a s'
      | (.error e, s') => (.error e, s') := by
  rcases h : act s with ⟨_ | _, s'⟩
  · simp only [bind, ExceptT.bind, ExceptT.mk, StateT.bind, h, ExceptT.bindCont]
    rfl
  · simp only [bind, ExceptT.bind, ExceptT.mk, StateT.bind, h, ExceptT.bindCont]

@[simp]
theorem map_apply
    (f : α → β)
    (act : Build α)
    (s : Bench) :
    (f <$> act) s = ((act s).1.map f, (act s).2) := by
  rw [← bind_pure_comp, bind_apply]
  rcases act s with ⟨_ | _, s'⟩ <;> rfl

@[simp]
theorem check_ok_apply
    (a : α)
    (s : Bench) :
    check (.ok a) s = (.ok a, s) :=
  rfl

/-- A failing check raises its fault at the builder's location and changes nothing. -/
@[simp]
theorem check_error_apply
    (fault : Fault)
    (s : Bench) :
    (check (.error fault) : Build α) s =
      (.error (fault.raisedAt s.builder.loc), s) :=
  rfl

end Build

namespace Plan

variable {α β : Type}

/-- A check that passes hands on what it found. -/
@[simp]
theorem ok_bind
    (a : α)
    (next : α → Except Fault β) :
    (Except.ok a >>= next) = next a :=
  rfl

/-- A check that fails ends the plan. -/
@[simp]
theorem error_bind
    (fault : Fault)
    (next : α → Except Fault β) :
    ((Except.error fault : Except Fault α) >>= next) = .error fault :=
  rfl

@[simp]
theorem ok_map
    (a : α)
    (f : α → β) :
    (f <$> (Except.ok a : Except Fault α)) = .ok (f a) :=
  rfl

@[simp]
theorem error_map
    (fault : Fault)
    (f : α → β) :
    (f <$> (Except.error fault : Except Fault α)) = .error fault :=
  rfl

@[simp]
theorem pure_eq_ok
    (a : α) :
    (pure a : Except Fault α) = .ok a :=
  rfl

/-- A plan comes to its end when its check passes and what follows does. -/
theorem bind_eq_ok
    {check : Except Fault α} {next : α → Except Fault β} {b : β}
    (hplan : (check >>= next) = .ok b) :
    ∃ a, check = .ok a ∧ next a = .ok b := by
  cases check with
  | ok a =>
      exact ⟨a, rfl, hplan⟩
  | error fault =>
      cases hplan

end Plan

end Computations

section Plans

namespace Call

/--
What a call comes to at a bench: the fault of the first check that fails, or the reply and the
bench after the change.
-/
def plan (s : Bench) : Call → Except Fault (Reply × Bench)
  | .startFunction name result params => do
      s.admitFunction name params
      let f := Function.declare name s.home.functions.length result params
      return (.function f, s.openFunction f)
  | .createBlock a label => do
      let f := (a.read? s.modules).getD default
      Bench.admitBlock f label
      return (.block (f.newBlock label),
        { s with modules := a.modify (fun f => f.addBlock label) s.modules })
  | .param a index => do
      let v ← Bench.parameter ((a.read? s.modules).getD default) index
      return (.value v, s)
  | .position side v => do
      let (a, index) ← s.locate side v
      return (.nothing,
        s.moveTo { s.builder.cursor with block := some a, anchor := side.anchor index })
  | .positionAt edge a => do
      let b ← s.entry edge a
      return (.nothing, s.moveTo ⟨some a.function, some a, edge.anchor b.size⟩)
  | .setLoc loc =>
      return (.nothing, { s with builder := { s.builder with loc } })
  | .constant type x => do
      let v ← Bench.constant type x
      return (.value v, s)
  | .emit e => do
      let d ← e.draft
      let site ← s.openSite d.op
      let i := s.stamp site.block d
      return (.value i.handle, s.insert site i)
  | .terminate t => do
      let d := t.draft s.labelAt
      let site ← s.openSite d.op
      let i := s.stamp site.block d
      return (.instr i, s.close site i)

/-- A call follows its plan; a fault is raised at the builder's location and changes nothing. -/
theorem perform_eq_plan
    (s : Bench)
    (c : Call) :
    c.perform s =
      match c.plan s with
      | .ok (reply, s') => (.ok reply, s')
      | .error fault => (.error (fault.raisedAt s.builder.loc), s) := by
  cases c with
  | startFunction name result params =>
      cases h : s.admitFunction name params <;>
        simp [perform, plan, Build.startFunction, Except.map, h]
  | createBlock a label =>
      cases h : Bench.admitBlock ((a.read? s.modules).getD default) label <;>
        simp [perform, plan, Build.createBlock, Except.map, h]
  | param a index =>
      cases h : Bench.parameter ((a.read? s.modules).getD default) index <;>
        simp [perform, plan, Build.param, Except.map, h]
  | position side v =>
      cases h : s.locate side v <;> simp [perform, plan, Build.position, h]
  | positionAt edge a =>
      cases h : s.entry edge a <;> simp [perform, plan, Build.positionAt, h]
  | setLoc loc =>
      simp [perform, plan, Build.setLoc]
  | constant type x =>
      cases h : Bench.constant type x <;>
        simp [perform, plan, Build.constant, Except.map, h]
  | emit e =>
      cases hd : e.draft with
      | error fault =>
          simp [perform, plan, Build.emit, Except.map, hd]
      | ok d =>
          cases h : s.openSite d.op <;>
            simp [perform, plan, Build.emit, Except.map, hd, h]
  | terminate t =>
      cases h : s.openSite (t.draft s.labelAt).op <;>
        simp [perform, plan, Build.terminate, Except.map, h]

end Call

end Plans

section Steps

/-- What a call that passes its checks does to a bench, and what it returns. -/
inductive Bench.Step (s : Bench) : Call → Reply → Bench → Prop
  | startFunction
      {name : String} {result : Ty} {params : List (String × Ty)}
      {f : Function}
      (hcheck : s.admitFunction name params = .ok ())
      (hf : f = Function.declare name s.home.functions.length result params) :
      Step s (.startFunction name result params) (.function f) (s.openFunction f)
  | createBlock
      {a : FunctionAddr} {label : String} {f : Function}
      (hf : f = (a.read? s.modules).getD default)
      (hcheck : Bench.admitBlock f label = .ok ()) :
      Step s (.createBlock a label) (.block (f.newBlock label))
        { s with modules := a.modify (fun f => f.addBlock label) s.modules }
  | param
      {a : FunctionAddr} {index : Nat} {v : Value}
      (hparam : Bench.parameter ((a.read? s.modules).getD default) index = .ok v) :
      Step s (.param a index) (.value v) s
  | position
      {side : Side} {v : Value} {a : BlockAddr} {index : Nat}
      (hlocate : s.locate side v = .ok (a, index)) :
      Step s (.position side v) .nothing
        (s.moveTo { s.builder.cursor with block := some a, anchor := side.anchor index })
  | positionAt
      {edge : Edge} {a : BlockAddr} {b : Block}
      (hentry : s.entry edge a = .ok b) :
      Step s (.positionAt edge a) .nothing
        (s.moveTo ⟨some a.function, some a, edge.anchor b.size⟩)
  | setLoc
      {loc : SourceLoc} :
      Step s (.setLoc loc) .nothing { s with builder := { s.builder with loc } }
  | constant
      {type : Ty} {x : Binary64} {v : Value}
      (hconstant : Bench.constant type x = .ok v) :
      Step s (.constant type x) (.value v) s
  | emit
      {e : Emission Value} {d : Draft} {site : Site} {i : Instr}
      (hdraft : e.draft = .ok d)
      (hsite : s.openSite d.op = .ok site)
      (hi : i = s.stamp site.block d) :
      Step s (.emit e) (.value i.handle) (s.insert site i)
  | terminate
      {t : Termination Value BlockAddr} {d : Draft} {site : Site} {i : Instr}
      (hdraft : d = t.draft s.labelAt)
      (hsite : s.openSite d.op = .ok site)
      (hi : i = s.stamp site.block d) :
      Step s (.terminate t) (.instr i) (s.close site i)

/-- A call whose plan has a reply makes its step. -/
theorem Bench.Step.of_plan
    {s s' : Bench} {c : Call} {reply : Reply}
    (hplan : c.plan s = .ok (reply, s')) :
    s.Step c reply s' := by
  cases c with
  | startFunction name result params =>
      obtain ⟨_, hcheck, ⟨⟩⟩ := Plan.bind_eq_ok hplan
      exact .startFunction hcheck rfl
  | createBlock a label =>
      obtain ⟨_, hcheck, ⟨⟩⟩ := Plan.bind_eq_ok hplan
      exact .createBlock rfl hcheck
  | param a index =>
      obtain ⟨v, hparam, ⟨⟩⟩ := Plan.bind_eq_ok hplan
      exact .param hparam
  | position side v =>
      obtain ⟨⟨a, index⟩, hlocate, ⟨⟩⟩ := Plan.bind_eq_ok hplan
      exact .position hlocate
  | positionAt edge a =>
      obtain ⟨b, hentry, ⟨⟩⟩ := Plan.bind_eq_ok hplan
      exact .positionAt hentry
  | setLoc loc =>
      cases hplan
      exact .setLoc
  | constant type x =>
      obtain ⟨v, hconstant, ⟨⟩⟩ := Plan.bind_eq_ok hplan
      exact .constant hconstant
  | emit e =>
      obtain ⟨d, hdraft, hplan⟩ := Plan.bind_eq_ok hplan
      obtain ⟨site, hsite, ⟨⟩⟩ := Plan.bind_eq_ok hplan
      exact .emit hdraft hsite rfl
  | terminate t =>
      obtain ⟨site, hsite, ⟨⟩⟩ := Plan.bind_eq_ok hplan
      exact .terminate rfl hsite rfl

/--
A call makes its step, or it fails at the builder's location and leaves the bench as it was.
-/
theorem Call.perform_cases
    (s : Bench)
    (c : Call) :
    (∃ reply s', s.Step c reply s' ∧ c.perform s = (.ok reply, s')) ∨
      ∃ fault : Fault, c.perform s = (.error (fault.raisedAt s.builder.loc), s) := by
  rw [c.perform_eq_plan s]
  cases hplan : c.plan s with
  | ok outcome =>
      exact Or.inl ⟨outcome.1, outcome.2, .of_plan hplan, rfl⟩
  | error fault =>
      exact Or.inr ⟨fault, rfl⟩

end Steps

section Worlds

namespace World

variable {w : World} {b : Nat} {c : Call}

/-- The bench of a builder of a world. -/
def benchOf
    (w : World)
    (builder : Builder) :
    Bench :=
  ⟨builder, w.modules, w.trace⟩

@[simp]
theorem benchOf_builder
    (w : World)
    (builder : Builder) :
    (w.benchOf builder).builder = builder :=
  rfl

@[simp]
theorem benchOf_modules
    (w : World)
    (builder : Builder) :
    (w.benchOf builder).modules = w.modules :=
  rfl

/-- The three ways a call in a world can go, each with the reply and the world after it. -/
inductive CallCase (w : World) (b : Nat) (c : Call) :
    Except BuildError Reply × World → Prop
  | absent
      (hb : w.builders[b]? = none) :
      CallCase w b c (.ok .nothing, w)
  | done
      {builder : Builder} {reply : Reply} {s : Bench}
      (hb : w.builders[b]? = some builder)
      (hstep : (w.benchOf builder).Step c reply s) :
      CallCase w b c (.ok reply, w.settle b s)
  | failed
      {builder : Builder} {fault : Fault}
      (hb : w.builders[b]? = some builder) :
      CallCase w b c (.error (fault.raisedAt builder.loc), w)

/-- Putting back the bench a builder took changes nothing. -/
theorem settle_benchOf
    {builder : Builder}
    (hb : w.builders[b]? = some builder) :
    w.settle b (w.benchOf builder) = w := by
  obtain ⟨hlt, hget⟩ := List.getElem?_eq_some_iff.mp hb
  have hset : w.builders.set b builder = w.builders := by
    rw [← hget, List.set_getElem_self]
  simp only [settle, benchOf, hset]

/-- A call on a builder that does not exist does nothing. -/
theorem call_absent
    (hb : w.builders[b]? = none) :
    w.call b c = (.ok .nothing, w) := by
  simp [call, perform, bench?, hb]

/-- A call on a builder is made at its bench, and the bench is put back. -/
theorem call_eq
    {builder : Builder}
    (hb : w.builders[b]? = some builder) :
    w.call b c =
      ((c.perform (w.benchOf builder)).1,
        w.settle b (c.perform (w.benchOf builder)).2) := by
  simp only [call, perform, bench?, hb, Option.map_some, Option.getD_some]
  rfl

theorem callCase
    (w : World)
    (b : Nat)
    (c : Call) :
    CallCase w b c (w.call b c) := by
  cases hb : w.builders[b]? with
  | none =>
      rw [call_absent hb]
      exact .absent hb
  | some builder =>
      rw [call_eq hb]
      rcases c.perform_cases (w.benchOf builder) with
        ⟨reply, s, hstep, hperform⟩ | ⟨fault, hperform⟩
      · rw [hperform]
        exact .done hb hstep
      · rw [hperform, settle_benchOf hb]
        exact .failed hb

/-- A call that succeeds on a builder makes its step there. -/
theorem step_of_ok
    {builder : Builder} {reply : Reply}
    (hb : w.builders[b]? = some builder)
    (hok : (w.call b c).1 = .ok reply) :
    ∃ s, (w.benchOf builder).Step c reply s ∧ (w.call b c).2 = w.settle b s := by
  have hcase := w.callCase b c
  generalize w.call b c = result at hcase hok
  cases hcase with
  | absent hb' =>
      rw [hb] at hb'
      cases hb'
  | done hb' hstep =>
      rw [hb] at hb'
      cases hb'
      cases hok
      exact ⟨_, hstep, rfl⟩
  | failed hb' =>
      cases hok

end World

end Worlds

end ThreeAddress
