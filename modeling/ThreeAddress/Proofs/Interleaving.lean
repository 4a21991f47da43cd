import ThreeAddress.Proofs.Locality
import ThreeAddress.Proofs.Reachable
import ThreeAddress.Proofs.Tracing

/-!
# Builders in different functions do not interfere

Two builders that stand in different functions, each making calls confined to its own, may take
turns in any way.  Each gets the replies, and ends where, it would if one had made all its calls
before the other began, and the code is the same (`World.interleaving_irrelevant`).

What a confined call does is the same in all worlds that look alike from the function
(`World.Stands.exists_effect`), so two calls of different builders may change places
(`World.Apart.swap`).  Every interleaving comes from the sequence by such exchanges.
-/

namespace ThreeAddress

/-- An interleaving of the calls of two builders; each builder keeps the order of its calls. -/
inductive Interleaving (a b : Nat) : List Call → List Call → List (Nat × Call) → Prop
  | nil : Interleaving a b [] [] []
  | first
      {c : Call} {xs ys : List Call} {calls : List (Nat × Call)}
      (h : Interleaving a b xs ys calls) :
      Interleaving a b (c :: xs) ys ((a, c) :: calls)
  | second
      {c : Call} {xs ys : List Call} {calls : List (Nat × Call)}
      (h : Interleaving a b xs ys calls) :
      Interleaving a b xs (c :: ys) ((b, c) :: calls)

section Outcomes

/-- What a run comes to, the trace left aside. -/
structure Outcome where
  /-- The replies to each builder. -/
  replies : Nat → List (Except BuildError Reply)
  modules : List Module
  builders : List Builder

/-- A reply to a builder comes first. -/
def Outcome.reply
    (o : Outcome)
    (b : Nat)
    (r : Except BuildError Reply) :
    Outcome :=
  { o with replies := fun b' => if b = b' then r :: o.replies b' else o.replies b' }

theorem Outcome.reply_comm
    {a b : Nat}
    (hab : a ≠ b)
    (o : Outcome)
    (q r : Except BuildError Reply) :
    (o.reply a q).reply b r = (o.reply b r).reply a q := by
  simp only [reply, mk.injEq, and_self, and_true]
  funext b'
  grind

namespace World

/-- The replies that a builder gets in a run. -/
def repliesTo
    (w : World)
    (b : Nat)
    (calls : List (Nat × Call)) :
    List (Except BuildError Reply) :=
  ((calls.zip (w.run calls).1).filter fun p => p.1.1 == b).map (·.2)

/-- What a run comes to. -/
def outcome
    (w : World)
    (calls : List (Nat × Call)) :
    Outcome :=
  ⟨fun b => w.repliesTo b calls, (w.after calls).modules, (w.after calls).builders⟩

theorem outcome_cons
    (w : World)
    (b : Nat)
    (c : Call)
    (calls : List (Nat × Call)) :
    w.outcome ((b, c) :: calls) =
      ((w.call b c).2.outcome calls).reply b (w.call b c).1 := by
  simp only [outcome, Outcome.reply, after_cons, Outcome.mk.injEq, and_self, and_true]
  funext b'
  simp only [repliesTo, run, List.zip_cons_cons, List.filter_cons]
  by_cases hb : b = b' <;> simp [hb]

theorem outcome_precede
    (w : World)
    (records : List TraceRecord)
    (calls : List (Nat × Call)) :
    (w.precede records).outcome calls = w.outcome calls := by
  simp only [outcome, repliesTo, after, run_precede]
  rfl

/-- The trace that a run starts with plays no part in what it comes to. -/
theorem outcome_congr
    {w w' : World}
    (hmodules : w'.modules = w.modules)
    (hbuilders : w'.builders = w.builders)
    (calls : List (Nat × Call)) :
    w'.outcome calls = w.outcome calls := by
  have hsilent : ∀ w : World, w.outcome calls = { w with trace := [] }.outcome calls := by
    intro w
    have hw : w = precede { w with trace := [] } w.trace := by
      simp [precede]
    rw [hw, outcome_precede]
    rfl
  rw [hsilent, hsilent w, hmodules, hbuilders]

end World

end Outcomes

namespace World

variable {w w' : World} {a b : Nat} {f g : FunctionAddr} {c d : Call} {e : Effect}

section Effects

/-- A builder of a world stands in a function. -/
def Stands
    (w : World)
    (b : Nat)
    (f : FunctionAddr) :
    Prop :=
  ∃ builder, w.builders[b]? = some builder ∧ builder.cursor.function = some f

/-- Two worlds that look alike to a builder from a function. -/
structure Alike (b : Nat) (f : FunctionAddr) (w w' : World) : Prop where
  builder_eq : w'.builders[b]? = w.builders[b]?
  own_eq : f.read? w'.modules = f.read? w.modules
  header_eq : ∀ a : FunctionAddr,
    (a.read? w'.modules).map Function.header = (a.read? w.modules).map Function.header

/-- A call of a builder has an effect on a function, whatever it does to the trace. -/
structure Has (w : World) (b : Nat) (f : FunctionAddr) (c : Call) (e : Effect) : Prop where
  reply_eq : (w.call b c).1 = e.reply
  builders_eq : (w.call b c).2.builders = w.builders.set b e.builder
  modules_eq : (w.call b c).2.modules = f.modify e.change w.modules

theorem Alike.refl
    (b : Nat)
    (f : FunctionAddr)
    (w : World) :
    w.Alike b f w :=
  ⟨rfl, rfl, fun _ => rfl⟩

/-- What a confined call does is the same in all worlds that look alike from the function. -/
theorem Stands.exists_effect
    (hstands : w.Stands b f)
    (hw : w.WellFormed)
    (hc : c.Confined f) :
    ∃ e : Effect, e.Local f ∧ ∀ w', w.Alike b f w' → w'.Has b f c e := by
  obtain ⟨builder, hb, hf⟩ := hstands
  obtain ⟨e, hlocal, hhas⟩ :=
    (w.benchOf builder).exists_effect hw.code (hw.builder _ (List.mem_of_getElem? hb)) hf hc
  refine ⟨e, hlocal, ?_⟩
  intro w' halike
  have hb' : w'.builders[b]? = some builder := halike.builder_eq.trans hb
  obtain ⟨hreply, hbuilder, hmodules⟩ :=
    hhas (w'.benchOf builder) ⟨rfl, halike.own_eq, halike.header_eq⟩
  constructor
  · rw [call_eq hb', hreply]
  · rw [call_eq hb', settle, hbuilder]
  · rw [call_eq hb', settle, hmodules, benchOf_modules]

/-- An effect on another function, by another builder, is not seen. -/
theorem Has.alike
    (hhas : w.Has b g d e)
    (hlocal : e.Local g)
    (hab : a ≠ b)
    (hfg : f ≠ g) :
    w.Alike a f (w.call b d).2 where
  builder_eq := by
    rw [hhas.builders_eq, List.getElem?_set_ne hab.symm]
  own_eq := by
    rw [hhas.modules_eq, FunctionAddr.read?_modify, if_neg hfg]
  header_eq := by
    intro h
    rw [hhas.modules_eq, FunctionAddr.read?_modify]
    split
    · rename_i heq
      rw [heq, Option.map_map]
      exact congrArg (Option.map · _) (funext hlocal.header_change)
    · rfl

/-- A builder that made a confined call stands in its function still. -/
theorem Has.stands
    (hhas : w.Has b f c e)
    (hlocal : e.Local f)
    (hstands : w.Stands b f) :
    (w.call b c).2.Stands b f := by
  obtain ⟨builder, hb, _⟩ := hstands
  obtain ⟨hlt, _⟩ := List.getElem?_eq_some_iff.mp hb
  refine ⟨e.builder, ?_, hlocal.function_eq⟩
  rw [hhas.builders_eq, List.getElem?_set_self hlt]

theorem Alike.stands
    (halike : w.Alike a f w')
    (hstands : w.Stands a f) :
    w'.Stands a f := by
  obtain ⟨builder, ha, hf⟩ := hstands
  exact ⟨builder, halike.builder_eq.trans ha, hf⟩

end Effects

section Exchanges

/-- Two builders of a well-formed world stand in different functions. -/
structure Apart (w : World) (a b : Nat) (f g : FunctionAddr) : Prop where
  wellFormed : w.WellFormed
  first : w.Stands a f
  second : w.Stands b g
  functions_ne : f ≠ g

theorem Apart.symm
    (hapart : w.Apart a b f g) :
    w.Apart b a g f :=
  ⟨hapart.wellFormed, hapart.second, hapart.first, hapart.functions_ne.symm⟩

theorem Apart.builders_ne
    (hapart : w.Apart a b f g) :
    a ≠ b := by
  rintro rfl
  obtain ⟨A, hA, hf⟩ := hapart.first
  obtain ⟨B, hB, hg⟩ := hapart.second
  rw [hA, Option.some.injEq] at hB
  rw [hB, hg, Option.some.injEq] at hf
  exact hapart.functions_ne hf.symm

/-- A confined call has one effect before and after the other builder's confined call. -/
theorem Apart.exists_effect
    (hapart : w.Apart a b f g)
    (hc : c.Confined f)
    (hd : d.Confined g) :
    ∃ e : Effect, w.Has a f c e ∧ (w.call b d).2.Has a f c e := by
  obtain ⟨e, _, hhas⟩ := hapart.first.exists_effect hapart.wellFormed hc
  obtain ⟨e', hlocal', hhas'⟩ := hapart.second.exists_effect hapart.wellFormed hd
  have halike : w.Alike a f (w.call b d).2 :=
    (hhas' w (.refl b g w)).alike hlocal' hapart.builders_ne hapart.functions_ne
  exact ⟨e, hhas w (.refl a f w), hhas _ halike⟩

theorem Apart.call_first
    (hapart : w.Apart a b f g)
    (hc : c.Confined f) :
    (w.call a c).2.Apart a b f g := by
  obtain ⟨e, hlocal, hhas⟩ := hapart.first.exists_effect hapart.wellFormed hc
  have hhas := hhas w (.refl a f w)
  have halike : w.Alike b g (w.call a c).2 :=
    hhas.alike hlocal hapart.symm.builders_ne hapart.symm.functions_ne
  exact ⟨hapart.wellFormed.call a c, hhas.stands hlocal hapart.first,
    halike.stands hapart.second, hapart.functions_ne⟩

theorem Apart.call_second
    (hapart : w.Apart a b f g)
    (hd : d.Confined g) :
    (w.call b d).2.Apart a b f g :=
  (hapart.symm.call_first hd).symm

/-- Two confined calls may change places. -/
theorem Apart.swap
    (hapart : w.Apart a b f g)
    (hc : c.Confined f)
    (hd : d.Confined g)
    (rest : List (Nat × Call)) :
    w.outcome ((b, d) :: (a, c) :: rest) = w.outcome ((a, c) :: (b, d) :: rest) := by
  obtain ⟨e, hfirst, hlater⟩ := hapart.exists_effect hc hd
  obtain ⟨e', hfirst', hlater'⟩ := hapart.symm.exists_effect hd hc
  have hmodules :
      ((w.call b d).2.call a c).2.modules = ((w.call a c).2.call b d).2.modules := by
    rw [hlater.modules_eq, hlater'.modules_eq, hfirst.modules_eq, hfirst'.modules_eq,
      FunctionAddr.modify_comm hapart.functions_ne]
  have hbuilders :
      ((w.call b d).2.call a c).2.builders = ((w.call a c).2.call b d).2.builders := by
    rw [hlater.builders_eq, hlater'.builders_eq, hfirst.builders_eq, hfirst'.builders_eq,
      List.set_comm _ _ hapart.builders_ne]
  simp only [outcome_cons]
  rw [outcome_congr hmodules hbuilders, hlater.reply_eq, hlater'.reply_eq, hfirst.reply_eq,
    hfirst'.reply_eq, Outcome.reply_comm hapart.builders_ne]

/-- A call may be made after all calls of the other builder instead of before them. -/
theorem Apart.outcome_postpone
    {xs : List Call}
    (hapart : w.Apart a b f g)
    (hxs : ∀ c ∈ xs, c.Confined f)
    (hd : d.Confined g)
    (rest : List (Nat × Call)) :
    w.outcome ((b, d) :: (xs.map (Prod.mk a) ++ rest)) =
      w.outcome (xs.map (Prod.mk a) ++ (b, d) :: rest) := by
  induction xs generalizing w with
  | nil =>
      rfl
  | cons c xs ih =>
      have hc := hxs c List.mem_cons_self
      have hxs' : ∀ c ∈ xs, c.Confined f := fun c hc => hxs c (List.mem_cons_of_mem _ hc)
      simp only [List.map_cons, List.cons_append]
      rw [hapart.swap hc hd, outcome_cons, ih (hapart.call_first hc) hxs', ← outcome_cons]

/-- An interleaving comes to what the calls of one builder and then those of the other come to. -/
theorem Apart.outcome_interleaving
    {xs ys : List Call} {calls : List (Nat × Call)}
    (hapart : w.Apart a b f g)
    (hxs : ∀ c ∈ xs, c.Confined f)
    (hys : ∀ c ∈ ys, c.Confined g)
    (hcalls : Interleaving a b xs ys calls) :
    w.outcome calls = w.outcome (xs.map (Prod.mk a) ++ ys.map (Prod.mk b)) := by
  induction hcalls generalizing w with
  | nil =>
      rfl
  | @first c xs ys calls h ih =>
      have hc := hxs c List.mem_cons_self
      have hxs' : ∀ c ∈ xs, c.Confined f := fun c hc => hxs c (List.mem_cons_of_mem _ hc)
      rw [List.map_cons, List.cons_append, outcome_cons, outcome_cons,
        ih (hapart.call_first hc) hxs' hys]
  | @second c xs ys calls h ih =>
      have hc := hys c List.mem_cons_self
      have hys' : ∀ c ∈ ys, c.Confined g := fun c hc => hys c (List.mem_cons_of_mem _ hc)
      -- In the sequence this call comes after all calls of the first builder.
      rw [List.map_cons, ← hapart.outcome_postpone hxs hc, outcome_cons, outcome_cons,
        ih (hapart.call_second hc) hxs hys']

/--
Builders in different functions do not interfere.

Two builders of a reachable world stand in different functions, and each makes calls confined to
its own function, failing ones among them.  However the calls of the two are interleaved, every
builder gets the replies that it gets when the first builder makes all its calls before the second
makes any, and all modules and all builders are the same afterwards.
-/
theorem interleaving_irrelevant
    {A B : Builder} {xs ys : List Call} {calls : List (Nat × Call)}
    (hw : w.Reachable)
    (ha : w.builders[a]? = some A)
    (hb : w.builders[b]? = some B)
    (hf : A.cursor.function = some f)
    (hg : B.cursor.function = some g)
    (hfg : f ≠ g)
    (hxs : ∀ c ∈ xs, c.Confined f)
    (hys : ∀ c ∈ ys, c.Confined g)
    (hcalls : Interleaving a b xs ys calls) :
    let sequence := xs.map (Prod.mk a) ++ ys.map (Prod.mk b)
    (∀ k, w.repliesTo k calls = w.repliesTo k sequence) ∧
      (w.after calls).builders = (w.after sequence).builders ∧
      (w.after calls).modules = (w.after sequence).modules := by
  have hapart : w.Apart a b f g := ⟨hw.wellFormed, ⟨A, ha, hf⟩, ⟨B, hb, hg⟩, hfg⟩
  have houtcome := hapart.outcome_interleaving hxs hys hcalls
  exact ⟨congrFun (congrArg Outcome.replies houtcome), congrArg Outcome.builders houtcome,
    congrArg Outcome.modules houtcome⟩

/-- Two builders that have each started a function of one module. -/
def apart : World :=
  pair.after
    [(0, .startFunction "f" Ty.void [("x", Ty.int 32)]),
      (1, .startFunction "g" Ty.void [("x", Ty.int 32)])]

/-- Calls in the first function; the second function's parameter is not found there. -/
def apartFirst : List Call :=
  let x : Value := .temp 0 (Ty.int 32) 0
  [.createBlock ⟨0, 0⟩ "entry",
    .positionAt .finish ⟨0, 0, 0⟩,
    .emit (.binary .add x x "s"),
    .position .before (.temp 0 (Ty.int 32) 1),
    .terminate (.jump ⟨0, 0, 0⟩)]

/-- Calls in the second function; nothing can be added after the block was closed. -/
def apartSecond : List Call :=
  let x : Value := .temp 0 (Ty.int 32) 1
  [.createBlock ⟨0, 1⟩ "entry",
    .positionAt .start ⟨0, 1, 0⟩,
    .emit (.load x "s"),
    .terminate (.ret none),
    .emit (.store x x)]

/-- The two take turns, the second builder first. -/
def apartTurns : List (Nat × Call) :=
  (apartFirst.zip apartSecond).flatMap fun p => [(1, p.2), (0, p.1)]

theorem apartTurns_irrelevant :
    (apart.repliesTo 0 apartTurns).map Except.isOk = [true, true, true, false, true] ∧
      (apart.repliesTo 1 apartTurns).map Except.isOk = [true, true, true, true, false] ∧
      let sequence := apartFirst.map (Prod.mk 0) ++ apartSecond.map (Prod.mk 1)
      (∀ k, apart.repliesTo k apartTurns = apart.repliesTo k sequence) ∧
        (apart.after apartTurns).builders = (apart.after sequence).builders ∧
        (apart.after apartTurns).modules = (apart.after sequence).modules := by
  refine ⟨by decide +kernel, by decide +kernel, ?_⟩
  have hturns : Interleaving 0 1 apartFirst apartSecond apartTurns :=
    .second <| .first <| .second <| .first <| .second <| .first <| .second <| .first <|
      .second <| .first .nil
  exact interleaving_irrelevant (f := ⟨0, 0⟩) (g := ⟨0, 1⟩) ⟨pair, _, pair_fresh, rfl⟩ rfl rfl
    rfl rfl (by decide) (by decide) (by decide) hturns

end Exchanges

end World

end ThreeAddress
