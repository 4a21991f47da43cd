import ThreeAddress.Proofs.Calls

/-!
# Runs of calls

A run makes calls one after another, each on the builder it names, and goes on after a failure.
It starts from a fresh world: modules without functions and builders that stand nowhere.  The
worlds that such runs lead to are the reachable ones.

A call that fails changes nothing, so the failed calls of a run may be left out: the remaining
calls give the same replies and lead to the same world (`run_without_failures`).
-/

namespace ThreeAddress

namespace World

section Running

/-- The world after a run. -/
def after
    (w : World)
    (calls : List (Nat × Call)) :
    World :=
  (w.run calls).2

@[simp]
theorem after_nil
    (w : World) :
    w.after [] = w :=
  rfl

@[simp]
theorem after_cons
    (w : World)
    (b : Nat)
    (c : Call)
    (calls : List (Nat × Call)) :
    w.after ((b, c) :: calls) = (w.call b c).2.after calls :=
  rfl

theorem after_append
    (w : World)
    (calls later : List (Nat × Call)) :
    w.after (calls ++ later) = (w.after calls).after later := by
  induction calls generalizing w with
  | nil =>
      rfl
  | cons first rest ih =>
      obtain ⟨b, c⟩ := first
      simp only [List.cons_append, after_cons, ih]

/-- The replies of a longer run are those of its parts. -/
theorem replies_append
    (w : World)
    (calls later : List (Nat × Call)) :
    (w.run (calls ++ later)).1 = (w.run calls).1 ++ ((w.after calls).run later).1 := by
  induction calls generalizing w with
  | nil =>
      rfl
  | cons first rest ih =>
      obtain ⟨b, c⟩ := first
      simp only [List.cons_append, run, after_cons, ih]

/-- What every call preserves, every run preserves. -/
theorem after_induction
    {P : World → Prop}
    (hcall : ∀ w b c, P w → P (w.call b c).2)
    {w : World}
    (hw : P w)
    (calls : List (Nat × Call)) :
    P (w.after calls) := by
  induction calls generalizing w with
  | nil =>
      exact hw
  | cons first rest ih =>
      exact ih (hcall w first.1 first.2 hw)

/-- A builder that is set up late is one that was there from the start and made no call. -/
theorem run_addBuilder
    (w : World)
    (home : Nat)
    (options : Options)
    {calls : List (Nat × Call)}
    (hcalls : ∀ p ∈ calls, p.1 < w.builders.length) :
    (w.addBuilder home options).run calls =
      ((w.run calls).1, (w.run calls).2.addBuilder home options) := by
  induction calls generalizing w with
  | nil =>
      rfl
  | cons first rest ih =>
      obtain ⟨b, c⟩ := first
      have hb : b < w.builders.length := hcalls (b, c) List.mem_cons_self
      obtain ⟨builder, hbuilder⟩ : ∃ builder, w.builders[b]? = some builder :=
        ⟨_, List.getElem?_eq_getElem hb⟩
      have hlate : (w.addBuilder home options).builders[b]? = some builder := by
        rw [addBuilder, List.getElem?_append_left hb, hbuilder]
      have hcall : (w.addBuilder home options).call b c =
          ((w.call b c).1, (w.call b c).2.addBuilder home options) := by
        rw [call_eq hlate, call_eq hbuilder]
        simp only [settle, addBuilder, List.set_append_left _ _ hb]
        rfl
      have hlength : (w.call b c).2.builders.length = w.builders.length := by
        rw [call_eq hbuilder]
        exact List.length_set
      have hrest : ∀ p ∈ rest, p.1 < (w.call b c).2.builders.length := by
        intro p hp
        rw [hlength]
        exact hcalls p (List.mem_cons_of_mem _ hp)
      simp only [run, hcall, ih (w.call b c).2 hrest]

end Running

section Reachability

/-- A world before any call: no module has a function, and no builder stands anywhere. -/
structure Fresh (w : World) : Prop where
  modules_empty : ∀ m ∈ w.modules, m.functions = []
  builders_home : ∀ builder ∈ w.builders, builder.home < w.modules.length
  builders_nowhere : ∀ builder ∈ w.builders, builder.cursor = {}

/-- The worlds that runs from fresh worlds lead to. -/
def Reachable (w : World) : Prop :=
  ∃ start calls, Fresh start ∧ w = start.after calls

theorem Reachable.call
    {w : World}
    (hw : w.Reachable)
    (b : Nat)
    (c : Call) :
    (w.call b c).2.Reachable := by
  obtain ⟨start, calls, hfresh, rfl⟩ := hw
  refine ⟨start, calls ++ [(b, c)], hfresh, ?_⟩
  rw [after_append]
  rfl

/-- A fresh world: one module and two builders on it. -/
def pair : World :=
  ({} : World).addModule {} |>.addBuilder 0 {} |>.addBuilder 0 {}

theorem pair_fresh :
    pair.Fresh where
  modules_empty := by simp [pair, addModule, addBuilder]
  builders_home := by simp [pair, addModule, addBuilder]
  builders_nowhere := by simp [pair, addModule, addBuilder]

/--
A run on it: both builders stand in one block, the second puts its instruction in front of the
first one's and closes the block.  An addition of a number to a truth value fails, and so does
every emission into the closed block.
-/
def pairCalls : List (Nat × Call) :=
  let x : Value := .temp 0 (Ty.int 32) 0
  [(0, .startFunction "f" Ty.void [("x", Ty.int 32)]),
    (1, .createBlock ⟨0, 0⟩ "entry"),
    (0, .positionAt .finish ⟨0, 0, 0⟩),
    (1, .positionAt .start ⟨0, 0, 0⟩),
    (0, .emit (.binary .add x x "y")),
    (0, .emit (.binary .add x (.bool true) "")),
    (1, .emit (.load x "z")),
    (1, .terminate (.ret none)),
    (0, .emit (.store x x))]

/--
Another run on it: a loop of three blocks.  The second builder loads in front of the comparison and
ends the last block; a comparison by a symbol that is none fails.
-/
def loopCalls : List (Nat × Call) :=
  let x : Value := .temp 0 (Ty.int 32) 0
  let address : Value := .temp 1 (Ty.int 32).pointer 0
  [(0, .startFunction "f" (Ty.int 32) [("x", Ty.int 32), ("p", (Ty.int 32).pointer)]),
    (0, .createBlock ⟨0, 0⟩ "entry"),
    (0, .createBlock ⟨0, 0⟩ "body"),
    (0, .createBlock ⟨0, 0⟩ "done"),
    (0, .positionAt .finish ⟨0, 0, 0⟩),
    (1, .positionAt .start ⟨0, 0, 0⟩),
    (0, .emit (.intCompare .signed "<" x x "c")),
    (0, .emit (.intCompare .signed "<<" x x "d")),
    (1, .emit (.load address "y")),
    (0, .terminate (.branch (.temp 2 (Ty.int 1) 0) ⟨0, 0, 1⟩ ⟨0, 0, 2⟩)),
    (0, .positionAt .finish ⟨0, 0, 1⟩),
    (1, .positionAt .finish ⟨0, 0, 2⟩),
    (1, .terminate (.ret (some x))),
    (0, .terminate (.jump ⟨0, 0, 0⟩))]

end Reachability

section Failures

/-- A call that fails changes nothing. -/
theorem call_eq_self_of_error
    {w : World} {b : Nat} {c : Call} {e : BuildError}
    (herror : (w.call b c).1 = .error e) :
    (w.call b c).2 = w := by
  have hcase := w.callCase b c
  generalize w.call b c = result at hcase herror
  cases hcase with
  | absent hb =>
      rfl
  | done hb hstep =>
      cases herror
  | failed hb =>
      rfl

/-- The calls of a run that succeed in it. -/
def successes
    (w : World)
    (calls : List (Nat × Call)) :
    List (Nat × Call) :=
  ((calls.zip (w.run calls).1).filter fun p => p.2.isOk).map (·.1)

theorem successes_cons_ok
    {w : World} {b : Nat} {c : Call} {reply : Reply}
    (hok : (w.call b c).1 = .ok reply)
    (calls : List (Nat × Call)) :
    w.successes ((b, c) :: calls) =
      (b, c) :: (w.call b c).2.successes calls := by
  simp [successes, run, hok, Except.isOk, Except.toBool]

theorem successes_cons_error
    {w : World} {b : Nat} {c : Call} {e : BuildError}
    (herror : (w.call b c).1 = .error e)
    (calls : List (Nat × Call)) :
    w.successes ((b, c) :: calls) = w.successes calls := by
  have hself := call_eq_self_of_error herror
  simp [successes, run, herror, hself, Except.isOk, Except.toBool]

/-- The successful calls of a run, made alone, give the same replies and the same world. -/
theorem run_successes
    (w : World)
    (calls : List (Nat × Call)) :
    w.run (w.successes calls) =
      ((w.run calls).1.filter (·.isOk), w.after calls) := by
  induction calls generalizing w with
  | nil =>
      rfl
  | cons first rest ih =>
      obtain ⟨b, c⟩ := first
      have ih := ih (w.call b c).2
      cases hcall : (w.call b c).1 with
      | ok reply =>
          rw [successes_cons_ok hcall]
          simp only [run, hcall, ih, after_cons]
          simp [Except.isOk, Except.toBool]
      | error e =>
          rw [call_eq_self_of_error hcall] at ih
          rw [successes_cons_error hcall, ih]
          simp only [run, hcall, after_cons, call_eq_self_of_error hcall]
          simp [Except.isOk, Except.toBool]

/--
A call that fails leaves every module, every builder and the trace as they were.  So the failed
calls of a run may be left out: the others give the same replies, and the world after them is
the same.
-/
theorem run_without_failures
    (w : World) :
    (∀ b c e, (w.call b c).1 = .error e → (w.call b c).2 = w) ∧
    ∀ calls,
      w.run (w.successes calls) =
        ((w.run calls).1.filter (·.isOk), (w.run calls).2) :=
  ⟨fun _ _ _ => call_eq_self_of_error, w.run_successes⟩

/--
Two calls of the example fail, the addition to a truth value, after which all is as before, and the
store into the closed block.  Without them the run gives the other replies and the same world.
-/
theorem pairCalls_without_failures :
    let x : Value := .temp 0 (Ty.int 32) 0
    let before := pair.after (pairCalls.take 5)
    before.call 0 (.emit (.binary .add x (.bool true) "")) =
        (.error ((Fault.operandTypesDiffer .add (Ty.int 32) (Ty.int 1)).raisedAt {}), before) ∧
      (pair.run pairCalls).1.map (·.isOk) =
        [true, true, true, true, true, false, true, true, false] ∧
      pair.run ((pairCalls.eraseIdx 8).eraseIdx 5) =
        ((pair.run pairCalls).1.filter (·.isOk), (pair.run pairCalls).2) := by
  intro x before
  have hfails : (before.call 0 (.emit (.binary .add x (.bool true) ""))).1 =
      .error ((Fault.operandTypesDiffer .add (Ty.int 32) (Ty.int 1)).raisedAt {}) :=
    rfl
  have hrest : pair.successes pairCalls = (pairCalls.eraseIdx 8).eraseIdx 5 := rfl
  refine ⟨Prod.ext hfails ((run_without_failures before).1 _ _ _ hfails), rfl, ?_⟩
  rw [← hrest]
  exact (run_without_failures pair).2 pairCalls

end Failures

end World

end ThreeAddress
