import ThreeAddress.Proofs.Drafts
import ThreeAddress.Proofs.Numbering

/-!
# What the history says about the code

The history of a run determines what every function holds.  A function has been started by one
call, and the calls that placed something in it have got the numbers behind its parameters, in
the order in which they were made.  What each of them placed is in the block that was current,
and it is there in every later world (`Placement.StoredIn.mono`).

The invariant is `Function.Records` for one function and `Recorded` for the code of all modules;
every addition keeps it together with the event that it adds to the history.
-/

namespace ThreeAddress

/-- What a call with a number placed is in the block where the call put it. -/
def Placement.StoredIn (p : Placement) (f : Function) (id : Nat) : Prop :=
  ∃ b, f.blocks[p.block.blockAt]? = some b ∧
    if p.closing then b.terminator = some (p.instr id) else p.instr id ∈ b.instrs

/-- A function that was started by a call and holds what the calls of a list placed. -/
structure Function.Records (f : Function) (d : Declaration) (ps : List Placement) : Prop where
  name_eq : f.name = d.name
  result_eq : f.result = d.result
  params_eq : f.params = d.opened.params
  names_eq : f.names = d.params.map (·.1) ++ ps.map (·.draft.name)
  placed : ∀ (k : Nat) (p : Placement), ps[k]? = some p →
    p.reply = p.answer (d.params.length + k) ∧ p.StoredIn f (d.params.length + k)

/-- The code that a history leads to. -/
structure Recorded (modules : List Module) (h : List Event) : Prop where
  function : ∀ a f, FunctionAddr.read? a modules = some f →
    ∃ d, declarationsOf a h = [d] ∧ f.Records d (placementsInto a h)
  absent : ∀ a, FunctionAddr.read? a modules = none →
    declarationsOf a h = [] ∧ placementsInto a h = []

section Functions

variable {f f' : Function} {d : Declaration} {ps : List Placement}

/-- What was placed stays where it is. -/
theorem Placement.StoredIn.mono
    {p : Placement} {id : Nat}
    (hp : p.StoredIn f id)
    (hgrows : f.Grows f') :
    p.StoredIn f' id := by
  obtain ⟨b, hb, hstored⟩ := hp
  obtain ⟨b', hb', hblock⟩ := hgrows.block _ b hb
  refine ⟨b', hb', ?_⟩
  by_cases hclosing : p.closing = true
  · rw [if_pos hclosing] at hstored ⊢
    have hclosed : b.isClosed = true := by simp [Block.isClosed, hstored]
    rw [hblock.eq_of_closed hclosed]
    exact hstored
  · rw [if_neg hclosing] at hstored ⊢
    exact hblock.instrs_sublist.subset hstored

namespace Function

theorem Records.nextId_eq
    (hf : f.Records d ps) :
    f.nextId = d.params.length + ps.length := by
  simp [nextId, hf.names_eq]

theorem Records.params_length
    (hf : f.Records d ps) :
    f.params.length = d.params.length := by
  simp [hf.params_eq, Declaration.opened, declare]

theorem Records.params_typed
    (hf : f.Records d ps) :
    f.params.map (fun p => (p.name, p.type)) = d.params := by
  rw [hf.params_eq, Declaration.opened, declare, List.map_map]
  exact List.zipIdx_map_fst 0 d.params

theorem records_opened
    (d : Declaration) :
    d.opened.Records d [] where
  name_eq := rfl
  result_eq := rfl
  params_eq := rfl
  names_eq := by simp [Declaration.opened, declare]
  placed := by simp

/-- A function that grows without giving out a number still records its calls. -/
theorem Records.mono
    (hf : f.Records d ps)
    (hgrows : f.Grows f')
    (hnames : f'.names = f.names) :
    f'.Records d ps where
  name_eq := hgrows.name_eq.trans hf.name_eq
  result_eq := hgrows.result_eq.trans hf.result_eq
  params_eq := hgrows.params_eq.trans hf.params_eq
  names_eq := hnames.trans hf.names_eq
  placed := by
    intro k p hp
    obtain ⟨hreply, hstored⟩ := hf.placed k p hp
    exact ⟨hreply, hstored.mono hgrows⟩

/-- A function that grows by what one more call placed records that call too. -/
theorem Records.concat
    {p : Placement}
    (hf : f.Records d ps)
    (hgrows : f.Grows f')
    (hnames : f'.names = f.names ++ [p.draft.name])
    (hreply : p.reply = p.answer f.nextId)
    (hstored : p.StoredIn f' f.nextId) :
    f'.Records d (ps ++ [p]) where
  name_eq := hgrows.name_eq.trans hf.name_eq
  result_eq := hgrows.result_eq.trans hf.result_eq
  params_eq := hgrows.params_eq.trans hf.params_eq
  names_eq := by
    rw [hnames, hf.names_eq, List.map_append, List.append_assoc]
    rfl
  placed := by
    intro k q hq
    rcases Nat.lt_or_ge k ps.length with hk | hk
    · rw [List.getElem?_append_left hk] at hq
      obtain ⟨hreply', hstored'⟩ := hf.placed k q hq
      exact ⟨hreply', hstored'.mono hgrows⟩
    · rw [List.getElem?_append_right hk, List.getElem?_singleton] at hq
      split at hq
      · rename_i hzero
        cases hq
        have hlast : d.params.length + k = f.nextId := by
          rw [hf.nextId_eq]
          omega
        rw [hlast]
        exact ⟨hreply, hstored⟩
      · cases hq

end Function

end Functions

section Modules

variable {modules modules' : List Module} {h h' : List Event}

/-- A change of one function keeps the code recorded, if the function records the new history. -/
theorem Recorded.modify
    {a : FunctionAddr} {f : Function} {change : Function → Function}
    (hmodules : Recorded modules h)
    (hf : a.read? modules = some f)
    (hdeclarations : ∀ a', declarationsOf a' h' = declarationsOf a' h)
    (hplacements : ∀ a', a' ≠ a → placementsInto a' h' = placementsInto a' h)
    (hchange : ∀ d, f.Records d (placementsInto a h) →
      (change f).Records d (placementsInto a h')) :
    Recorded (a.modify change modules) h' where
  function := by
    intro a' f' hf'
    rw [FunctionAddr.read?_modify] at hf'
    split at hf'
    · rename_i haddr
      subst haddr
      rw [hf] at hf'
      cases hf'
      obtain ⟨d, hd, hrecords⟩ := hmodules.function a' f hf
      exact ⟨d, (hdeclarations a').trans hd, hchange d hrecords⟩
    · rename_i haddr
      rw [hdeclarations, hplacements a' haddr]
      exact hmodules.function a' f' hf'
  absent := by
    intro a' ha'
    rw [FunctionAddr.read?_modify] at ha'
    split at ha'
    · rw [hf] at ha'
      cases ha'
    · rename_i haddr
      rw [hdeclarations, hplacements a' haddr]
      exact hmodules.absent a' ha'

/-- Placing what a call drafts, with the next number, keeps the code recorded. -/
theorem Recorded.place
    {p : Placement} {f : Function} {b : Block} {change : Block → Block}
    (hmodules : Recorded modules h)
    (hf : p.block.function.read? modules = some f)
    (hb : f.blocks[p.block.blockAt]? = some b)
    (hreply : p.reply = p.answer f.nextId)
    (hgrows : b.Grows (change b))
    (hstored : if p.closing then (change b).terminator = some (p.instr f.nextId)
      else p.instr f.nextId ∈ (change b).instrs) :
    Recorded
      (p.block.function.modify
        (fun f' => f'.place p.block.blockAt (p.instr f.nextId) change) modules)
      (h ++ [.placement p]) := by
  refine hmodules.modify hf ?_ ?_ ?_
  · intro a'
    simp [declarationsOf]
  · intro a' ha'
    simp [placementsInto, Ne.symm ha']
  · intro d hrecords
    have hconcat : placementsInto p.block.function (h ++ [.placement p]) =
        placementsInto p.block.function h ++ [p] := by
      simp [placementsInto]
    rw [hconcat]
    refine hrecords.concat (Function.grows_place hb hgrows _) rfl hreply ?_
    refine ⟨change b, ?_, hstored⟩
    simp [hb]

/-- Starting a function keeps the code recorded. -/
theorem Recorded.declare
    {d : Declaration} {m : Module}
    (hmodules : Recorded modules h)
    (hm : modules[d.function.moduleAt]? = some m)
    (hend : d.function.functionAt = m.functions.length)
    (target : Option String) :
    Recorded
      (modules.modify d.function.moduleAt fun m' =>
        (m'.supplyTarget target).addFunction d.opened)
      (h ++ [.declaration d]) := by
  have hread := read?_addFunction hm target d.opened
  have hnone : d.function.read? modules = none := by
    rw [← read?_length hm, ← hend]
  rw [← hend] at hread
  constructor
  · intro a f hf
    rw [hread] at hf
    split at hf
    · rename_i haddr
      cases hf
      have haddr : a = d.function := haddr
      subst haddr
      obtain ⟨hdeclarations, hplacements⟩ := hmodules.absent _ hnone
      refine ⟨d, ?_, ?_⟩
      · rw [declarationsOf_append, hdeclarations]
        simp [declarationsOf]
      · rw [placementsInto_append, hplacements]
        exact Function.records_opened d
    · rename_i haddr
      have haddr : a ≠ d.function := haddr
      rw [declarationsOf_append, placementsInto_append]
      simpa [declarationsOf, placementsInto, Ne.symm haddr] using hmodules.function a f hf
  · intro a ha
    rw [hread] at ha
    split at ha
    · cases ha
    · rename_i haddr
      have haddr : a ≠ d.function := haddr
      rw [declarationsOf_append, placementsInto_append]
      simpa [declarationsOf, placementsInto, Ne.symm haddr] using hmodules.absent a ha

/-- Additions keep the code recorded. -/
theorem Addition.recorded
    {e : Option Event}
    (hadd : Addition modules e modules')
    (hmodules : Recorded modules h) :
    Recorded modules' (h ++ e.toList) := by
  cases hadd with
  | nothing =>
      simpa using hmodules
  | function hm hend hname hnew hparams =>
      exact hmodules.declare hm hend _
  | block hf hlabel hnew =>
      rw [Option.toList_none, List.append_nil]
      exact hmodules.modify hf (fun _ => rfl) (fun _ _ => rfl)
        fun _ hrecords => hrecords.mono (Function.grows_addBlock _ _) rfl
  | instr hf hb hopen hclosing hdraft hreply =>
      refine hmodules.place hf hb hreply (Block.grows_insert hopen _ _) ?_
      simp [hclosing, Block.insert]
  | terminator hf hb hopen hclosing hdraft hreply =>
      refine hmodules.place hf hb hreply (Block.grows_close hopen _) ?_
      simp [hclosing, Block.close]

end Modules

section Runs

/-- What was placed with a number is the only thing in the function with that number. -/
theorem Placement.StoredIn.filter_id_eq_singleton
    {p : Placement} {f : Function} {id : Nat}
    (hp : p.StoredIn f id)
    (hf : f.Numbered) :
    (f.blocks.flatMap Block.contents).filter (fun i => i.id == id) = [p.instr id] := by
  obtain ⟨b, hb, hstored⟩ := hp
  have hcontents : p.instr id ∈ b.contents := by
    by_cases hclosing : p.closing = true
    · rw [if_pos hclosing] at hstored
      exact List.mem_append_right _ (by simp [hstored])
    · rw [if_neg hclosing] at hstored
      exact List.mem_append_left _ hstored
  exact hf.filter_id_eq_singleton (List.mem_of_getElem? hb) hcontents

namespace World

variable {start : World}

/-- The code that a run from a fresh world leads to is that of its history. -/
theorem Fresh.recorded
    (hstart : start.Fresh)
    (calls : List (Nat × Call)) :
    Recorded (start.after calls).modules (start.history calls) := by
  have hempty : Recorded start.modules [] := by
    refine ⟨?_, fun _ _ => ⟨rfl, rfl⟩⟩
    intro a f hf
    rw [hstart.read?_eq_none] at hf
    cases hf
  exact hstart.wellFormed.history_induction
    (fun hmodules hadd => hadd.recorded hmodules) hempty calls

/--
The numbers of a run, and what it placed under them.

A successful emission or termination adds one entry to the history of the run: the caller's
current block and location, the reply, and what the call drafts from its arguments, which is the
operation, the type, the operands, the name and the predicate that `Drafted` states for them.

In a function, parameters, instructions and terminators have distinct numbers, and these are all
the numbers given out.  One call has started the function; its parameters have the first numbers
in order.  The entries of the history for the function, in their order, have got the numbers behind
these, and what an entry placed is then, and in every later world, in its block of the function
and nowhere else, as it was drafted.  The name that is kept with a number is the name of what has
the number, and instructions that store or end a block have none.
-/
theorem numbers_follow_history
    (hstart : start.Fresh)
    (calls : List (Nat × Call)) :
    (∀ b builder reply, (start.after calls).builders[b]? = some builder →
      (∀ e, ((start.after calls).call b (.emit e)).1 = .ok reply →
        ∃ draft block, e.draft = .ok draft ∧ e.Drafted draft ∧
          builder.cursor.block = some block ∧
          start.history (calls ++ [(b, .emit e)]) =
            start.history calls ++
              [.placement ⟨block, false, draft, builder.loc, reply⟩]) ∧
      ∀ t, ((start.after calls).call b (.terminate t)).1 = .ok reply →
        let draft := t.draft ((start.after calls).benchOf builder).labelAt
        ∃ block, t.Drafted (start.after calls).modules draft ∧
          builder.cursor.block = some block ∧
          start.history (calls ++ [(b, .terminate t)]) =
            start.history calls ++
              [.placement ⟨block, true, draft, builder.loc, reply⟩]) ∧
    ∀ a f, FunctionAddr.read? a (start.after calls).modules = some f →
      f.ids.Nodup ∧
      (∀ id, id ∈ f.ids ↔ id < f.nextId) ∧
      (∃ d, declarationsOf a (start.history calls) = [d] ∧
        f.name = d.name ∧ f.result = d.result ∧
        f.params.map (fun p => (p.name, p.type)) = d.params) ∧
      f.params.map Param.id = List.range f.params.length ∧
      f.nextId = f.params.length + (placementsInto a (start.history calls)).length ∧
      (∀ (k : Nat) p, (placementsInto a (start.history calls))[k]? = some p →
        p.reply = p.answer (f.params.length + k) ∧
        ∀ later, ∃ f',
          a.read? (start.after (calls ++ later)).modules = some f' ∧
          p.StoredIn f' (f.params.length + k) ∧
          (f'.blocks.flatMap Block.contents).filter (fun i => i.id == f.params.length + k) =
            [p.instr (f.params.length + k)]) ∧
      (∀ p ∈ f.params, f.nameOf p.id = p.name) ∧
      ∀ b ∈ f.blocks,
        (∀ i ∈ b.contents, f.nameOf i.id = i.name) ∧
        (∀ i ∈ b.instrs, i.op = .store → i.name = "") ∧
        ∀ t, b.terminator = some t → t.name = "" := by
  constructor
  · intro b builder reply hb
    constructor
    · intro e hok
      obtain ⟨draft, block, hdraft, hblock, hevent⟩ := event?_emit hb hok
      refine ⟨draft, block, hdraft, Emission.draft_eq_ok_iff.mp hdraft, hblock, ?_⟩
      rw [history_concat, hevent, Option.toList_some]
    · intro t hok draft
      obtain ⟨block, hblock, hevent⟩ := event?_terminate hb hok
      refine ⟨block, ((start.after calls).benchOf builder).drafted_termination t, hblock, ?_⟩
      rw [history_concat, hevent, Option.toList_some]
  · intro a f hf
    have hreachable : ∀ calls', (start.after calls').Reachable :=
      fun calls' => ⟨start, calls', hstart, rfl⟩
    have hnumbered := (hreachable calls).numbered a f hf
    have hnames := (hreachable calls).forall_instr
      (P := fun i => i.op = .store → i.name = "") (Q := fun i => i.name = "")
      Emission.draft_name_of_store
      (fun {i t label} hdraft =>
        (congrArg Draft.name hdraft).trans (Termination.draft_name t label))
      a f hf
    obtain ⟨d, hd, hrecords⟩ := (hstart.recorded calls).function a f hf
    rw [hrecords.params_length]
    refine ⟨hnumbered.ids_nodup, fun id => hnumbered.mem_ids_iff,
      ⟨d, hd, hrecords.name_eq, hrecords.result_eq, hrecords.params_typed⟩,
      hrecords.params_length ▸ hnumbered.params_ids, hrecords.nextId_eq, ?_,
      hnumbered.nameOf_param,
      fun b hb => ⟨hnumbered.nameOf_instr b hb, hnames b hb⟩⟩
    intro k p hp
    obtain ⟨hreply, hstored⟩ := hrecords.placed k p hp
    refine ⟨hreply, ?_⟩
    intro later
    rw [after_append]
    have hgrows := (hreachable calls).wellFormed.grows_after later
    obtain ⟨f', hf', hfun⟩ := hgrows.function a f hf
    have hnumbered' := (hreachable (calls ++ later)).numbered a f' (by rwa [after_append])
    have hstored' := hstored.mono hfun
    exact ⟨f', hf', hstored', hstored'.filter_id_eq_singleton hnumbered'⟩

/--
The numbers of a loop: two builders got five numbers behind its parameters, and these are what the
five calls drafted.
-/
theorem loopCalls_numbers :
    let x : Value := .temp 0 (Ty.int 32) 0
    let c : Value := .temp 2 (Ty.int 1) 0
    ∃ f, FunctionAddr.read? ⟨0, 0⟩ (pair.after loopCalls).modules = some f ∧
      f.names = ["x", "p", "c", "y", "", "", ""] ∧ f.ids = [0, 1, 3, 2, 4, 6, 5] ∧
      (placementsInto ⟨0, 0⟩ (pair.history loopCalls)).map (·.draft) =
        [⟨.icmp, Ty.int 1, [x, x], "c", "slt"⟩,
          ⟨.load, Ty.int 32, [.temp 1 (Ty.int 32).pointer 0], "y", ""⟩,
          ⟨.branch, Ty.void, [c, .block "body", .block "done"], "", ""⟩,
          ⟨.ret, Ty.void, [x], "", ""⟩,
          ⟨.jump, Ty.void, [.block "entry"], "", ""⟩] ∧
      ∀ (k : Nat) p, (placementsInto ⟨0, 0⟩ (pair.history loopCalls))[k]? = some p →
        p.reply = p.answer (2 + k) := by
  intro x c
  have hread : (FunctionAddr.read? ⟨0, 0⟩ (pair.after loopCalls).modules).map
      (fun f => (f.names, f.ids, f.params.length)) =
        some (["x", "p", "c", "y", "", "", ""], [0, 1, 3, 2, 4, 6, 5], 2) := by
    decide +kernel
  obtain ⟨f, hf, hvalues⟩ := Option.map_eq_some_iff.mp hread
  simp only [Prod.mk.injEq] at hvalues
  obtain ⟨hnames, hids, hparams⟩ := hvalues
  obtain ⟨_, _, _, _, _, hplaced, _⟩ := (numbers_follow_history pair_fresh loopCalls).2 _ f hf
  refine ⟨f, hf, hnames, hids, rfl, ?_⟩
  intro k p hp
  rw [← hparams]
  exact (hplaced k p hp).1

end World

end Runs

end ThreeAddress
