import ThreeAddress.Proofs.Checks
import ThreeAddress.Proofs.Runs

/-!
# The history of a run

Three kinds of calls give out numbers: one that starts a function, for its parameters, and one
that emits an instruction or ends a block.  The history of a run lists the successful ones in the
order in which they were made, over all builders, each with what is known when the call returns:
its arguments, the caller's current block and location, and the reply.

Nothing in a history is read off the code that the run leads to, so what is later said about
the code in terms of the history is said in terms of the calls.
-/

namespace ThreeAddress

section Events

/-- A successful call that started a function. -/
structure Declaration where
  /-- The end of the caller's module at the time of the call. -/
  function : FunctionAddr
  name : String
  result : Ty
  params : List (String × Ty)

/-- A successful call that emitted an instruction or ended a block. -/
structure Placement where
  /-- The caller's current block. -/
  block : BlockAddr
  /-- The call ended the block. -/
  closing : Bool
  /-- What the call builds from its arguments. -/
  draft : Draft
  /-- The caller's current location. -/
  loc : SourceLoc
  reply : Reply

/-- A successful call that gave out numbers. -/
inductive Event where
  | declaration (d : Declaration)
  | placement (p : Placement)

/-- The function as it was started. -/
def Declaration.opened (d : Declaration) : Function :=
  .declare d.name d.function.functionAt d.result d.params

namespace Placement

/-- The instruction that a call places when it is given a number. -/
def instr (p : Placement) (id : Nat) : Instr :=
  { p.draft with id, parent := p.block.functionAt, loc := p.loc }

/-- What a call returns that is given a number. -/
def answer (p : Placement) (id : Nat) : Reply :=
  if p.closing then .instr (p.instr id) else .value (p.instr id).handle

end Placement

/-- What a successful call with a reply adds to the history. -/
def Bench.event? (s : Bench) (reply : Reply) : Call → Option Event
  | .startFunction name result params =>
      some (.declaration ⟨⟨s.builder.home, s.home.functions.length⟩, name, result, params⟩)
  | .emit e => do
      let draft ← e.draft.toOption
      let block ← s.builder.cursor.block
      return .placement ⟨block, false, draft, s.builder.loc, reply⟩
  | .terminate t => do
      let block ← s.builder.cursor.block
      return .placement ⟨block, true, t.draft s.labelAt, s.builder.loc, reply⟩
  | _ => none

end Events

namespace World

/-- What a call adds to the history; a failed call adds nothing. -/
def event? (w : World) (b : Nat) (c : Call) : Option Event :=
  match w.bench? b, (w.call b c).1 with
  | some s, .ok reply => s.event? reply c
  | _, _ => none

/-- The history of a run. -/
def history (w : World) : List (Nat × Call) → List Event
  | [] => []
  | (b, c) :: rest => (w.event? b c).toList ++ (w.call b c).2.history rest

end World

/-- The calls of a history that started the function at an address. -/
def declarationsOf (a : FunctionAddr) (h : List Event) : List Declaration :=
  h.filterMap fun
    | .declaration d => if d.function = a then some d else none
    | .placement _ => none

/-- The calls of a history that placed something in the function at an address. -/
def placementsInto (a : FunctionAddr) (h : List Event) : List Placement :=
  h.filterMap fun
    | .declaration _ => none
    | .placement p => if p.block.function = a then some p else none

section Histories

/-- An emission with a draft adds a placement in the current block to the history. -/
theorem Bench.event?_of_draft
    {s : Bench} {e : Emission Value} {d : Draft} {a : BlockAddr}
    (hd : e.draft = .ok d)
    (ha : s.builder.cursor.block = some a)
    (reply : Reply) :
    s.event? reply (.emit e) = some (.placement ⟨a, false, d, s.builder.loc, reply⟩) := by
  simp [event?, hd, ha, Except.toOption]

theorem Bench.event?_of_terminate
    {s : Bench} {a : BlockAddr}
    (ha : s.builder.cursor.block = some a)
    (t : Termination Value BlockAddr)
    (reply : Reply) :
    s.event? reply (.terminate t) =
      some (.placement ⟨a, true, t.draft s.labelAt, s.builder.loc, reply⟩) := by
  simp [event?, ha]

theorem declarationsOf_append
    (a : FunctionAddr)
    (h h' : List Event) :
    declarationsOf a (h ++ h') = declarationsOf a h ++ declarationsOf a h' :=
  List.filterMap_append

theorem placementsInto_append
    (a : FunctionAddr)
    (h h' : List Event) :
    placementsInto a (h ++ h') = placementsInto a h ++ placementsInto a h' :=
  List.filterMap_append

namespace World

theorem history_append
    (w : World)
    (calls later : List (Nat × Call)) :
    w.history (calls ++ later) = w.history calls ++ (w.after calls).history later := by
  induction calls generalizing w with
  | nil =>
      rfl
  | cons first rest ih =>
      obtain ⟨b, c⟩ := first
      simp only [List.cons_append, history, ih, after_cons, List.append_assoc]

/-- The history of a run grows by what the next call adds. -/
theorem history_concat
    (w : World)
    (calls : List (Nat × Call))
    (b : Nat)
    (c : Call) :
    w.history (calls ++ [(b, c)]) =
      w.history calls ++ ((w.after calls).event? b c).toList := by
  rw [history_append, history, history, List.append_nil]

/-- A failed call leaves no trace in the history. -/
theorem event?_of_error
    {w : World} {b : Nat} {c : Call} {e : BuildError}
    (herror : (w.call b c).1 = .error e) :
    w.event? b c = none := by
  simp only [event?, herror]
  cases w.bench? b <;> rfl

theorem event?_of_ok
    {w : World} {b : Nat} {c : Call} {builder : Builder} {reply : Reply}
    (hb : w.builders[b]? = some builder)
    (hok : (w.call b c).1 = .ok reply) :
    w.event? b c = (w.benchOf builder).event? reply c := by
  simp only [event?, bench?, hb, hok, Option.map_some]
  rfl

theorem event?_absent
    {w : World} {b : Nat} {c : Call}
    (hb : w.builders[b]? = none) :
    w.event? b c = none := by
  simp only [event?, bench?, hb, Option.map_none]

variable {w : World} {b : Nat} {builder : Builder} {reply : Reply}

/-- A successful emission is in the history, with the draft of its arguments. -/
theorem event?_emit
    {e : Emission Value}
    (hb : w.builders[b]? = some builder)
    (hok : (w.call b (.emit e)).1 = .ok reply) :
    ∃ draft block, e.draft = .ok draft ∧ builder.cursor.block = some block ∧
      w.event? b (.emit e) = some (.placement ⟨block, false, draft, builder.loc, reply⟩) := by
  rw [event?_of_ok hb hok]
  obtain ⟨s, hstep, _⟩ := step_of_ok hb hok
  cases hstep with
  | @emit _ draft site _ hdraft hsite _ =>
      have hblock := Bench.cursor_of_openSite hsite
      exact ⟨draft, site.address, hdraft, hblock, Bench.event?_of_draft hdraft hblock _⟩

/-- A successful termination is in the history, with the draft of its arguments. -/
theorem event?_terminate
    {t : Termination Value BlockAddr}
    (hb : w.builders[b]? = some builder)
    (hok : (w.call b (.terminate t)).1 = .ok reply) :
    ∃ block, builder.cursor.block = some block ∧
      w.event? b (.terminate t) =
        some (.placement
          ⟨block, true, t.draft (w.benchOf builder).labelAt, builder.loc, reply⟩) := by
  rw [event?_of_ok hb hok]
  obtain ⟨s, hstep, _⟩ := step_of_ok hb hok
  cases hstep with
  | @terminate _ _ site _ _ hsite _ =>
      have hblock := Bench.cursor_of_openSite hsite
      exact ⟨site.address, hblock, Bench.event?_of_terminate hblock t _⟩

end World

end Histories

end ThreeAddress
