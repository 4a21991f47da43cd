import ThreeAddress.Proofs.Numbering

/-!
# Closed blocks

The instruction that ends a block is the last thing that happens to the block.  From then on the
block stays as it is, every builder that stands in it fails to place anything, and in the history
of the run no other call has ended it.
-/

namespace ThreeAddress

/-- The event is a call that ended the block at an address. -/
def Event.closes (a : BlockAddr) : Event → Bool
  | .declaration _ => false
  | .placement p => p.closing && p.block == a

section Terminators

variable {modules modules' : List Module}

/-- The instruction that ends the block at an address. -/
def BlockAddr.terminator? (a : BlockAddr) (modules : List Module) : Option Instr :=
  (a.read? modules).bind Block.terminator

/-- A new function has no block. -/
theorem terminator?_addFunction
    {d : Declaration} {m : Module}
    (hm : modules[d.function.moduleAt]? = some m)
    (target : Option String)
    (a : BlockAddr) :
    a.terminator?
        (modules.modify d.function.moduleAt fun m => (m.supplyTarget target).addFunction d.opened) =
      a.terminator? modules := by
  simp only [BlockAddr.terminator?, BlockAddr.read?_eq]
  rw [read?_addFunction hm]
  split
  · rename_i haddr
    rw [haddr, read?_length hm]
    rfl
  · rfl

/-- A new block is open. -/
theorem terminator?_addBlock
    (a : BlockAddr)
    (a' : FunctionAddr)
    (label : String) :
    a.terminator? (a'.modify (fun f => f.addBlock label) modules) = a.terminator? modules := by
  simp only [BlockAddr.terminator?, BlockAddr.read?_eq, FunctionAddr.read?_modify]
  split
  · rename_i haddr
    rw [haddr]
    cases a'.read? modules with
    | none =>
        rfl
    | some f =>
        simp only [Option.map_some, Option.bind_some, Function.addBlock]
        rcases Nat.lt_trichotomy a.blockAt f.blocks.length with hlt | heq | hgt
        · rw [List.getElem?_append_left hlt]
        · simp [heq, Function.newBlock]
        · have hlength : (f.blocks ++ [f.newBlock label]).length ≤ a.blockAt := by
            rw [List.length_append, List.length_singleton]
            exact hgt
          rw [List.getElem?_eq_none hlength, List.getElem?_eq_none (Nat.le_of_lt hgt)]
  · rfl

theorem terminator?_place
    (a a' : BlockAddr)
    (i : Instr)
    (change : Block → Block) :
    a.terminator? (a'.function.modify (fun f => f.place a'.blockAt i change) modules) =
      if a = a' then (a'.read? modules).bind fun b => (change b).terminator
      else a.terminator? modules := by
  simp only [BlockAddr.terminator?, read?_place]
  split
  · rw [Option.bind_map]
    rfl
  · rfl

/-- Additions end as many blocks as the history says. -/
theorem Addition.closings
    {e : Option Event}
    (hadd : Addition modules e modules')
    (a : BlockAddr) :
    (a.terminator? modules').toList.length =
      (a.terminator? modules).toList.length + e.toList.countP (Event.closes a) := by
  cases hadd with
  | nothing =>
      simp
  | function hm hend hname hnew hparams =>
      rw [terminator?_addFunction hm]
      simp [Event.closes]
  | block hf hlabel hnew =>
      rw [terminator?_addBlock]
      simp
  | @instr p f b position e hf hb hopen hclosing hdraft hreply =>
      rw [terminator?_place]
      split
      · rename_i haddr
        subst haddr
        simp [Event.closes, hclosing, BlockAddr.terminator?, Block.insert, Option.bind]
      · simp [Event.closes, hclosing]
  | @terminator p f b t label hf hb hopen hclosing hdraft hreply =>
      have hread : p.block.read? modules = some b := by
        rw [BlockAddr.read?_eq, hf, Option.bind_some, hb]
      rw [terminator?_place]
      split
      · rename_i haddr
        subst haddr
        simp [Event.closes, hclosing, BlockAddr.terminator?, hread, hopen, Block.close]
      · rename_i haddr
        simp [Event.closes, Ne.symm haddr]

end Terminators

section Failing

namespace World

variable {w : World} {b : Nat} {builder : Builder} {a : BlockAddr} {block : Block}

/-- An emission into a closed block fails, if its arguments pass their check. -/
theorem call_emit_of_closed
    {e : Emission Value} {d : Draft}
    (hb : w.builders[b]? = some builder)
    (ha : builder.cursor.block = some a)
    (hread : a.read? w.modules = some block)
    (hclosed : block.isClosed = true)
    (hd : e.draft = .ok d) :
    (w.call b (.emit e)).1 =
      .error ((Fault.blockClosed d.op block.label).raisedAt builder.loc) := by
  have hopen := Bench.openSite_of_closed (site?_benchOf ha hread) hclosed d.op
  rw [call_eq hb]
  simp [Call.perform_eq_plan, Call.plan, hd, hopen]

/-- A termination of a closed block fails. -/
theorem call_terminate_of_closed
    (t : Termination Value BlockAddr)
    (hb : w.builders[b]? = some builder)
    (ha : builder.cursor.block = some a)
    (hread : a.read? w.modules = some block)
    (hclosed : block.isClosed = true) :
    (w.call b (.terminate t)).1 =
      .error ((Fault.blockClosed (t.draft (w.benchOf builder).labelAt).op
        block.label).raisedAt builder.loc) := by
  have hopen := Bench.openSite_of_closed (site?_benchOf ha hread) hclosed
    (t.draft (w.benchOf builder).labelAt).op
  rw [call_eq hb]
  simp [Call.perform_eq_plan, Call.plan, hopen]

/-- The current block of a builder is closed by what a termination of it returns. -/
theorem WellFormed.read?_after_terminate
    {t : Termination Value BlockAddr} {reply : Reply}
    (hw : w.WellFormed)
    (hb : w.builders[b]? = some builder)
    (ha : builder.cursor.block = some a)
    (hok : (w.call b (.terminate t)).1 = .ok reply) :
    ∃ block i, reply = .instr i ∧ block.terminator = some i ∧
      a.read? (w.call b (.terminate t)).2.modules = some block := by
  obtain ⟨s, hstep, hafter⟩ := step_of_ok hb hok
  have hbuilder := hw.builder _ (List.mem_of_getElem? hb)
  rw [hafter]
  cases hstep with
  | @terminate _ d site i hdraft hsite hi =>
      obtain ⟨hsite, _⟩ := Bench.openSite_eq_ok_iff.mp hsite
      obtain ⟨hcursor, hread, _⟩ := Bench.site?_eq_some_iff.mp hsite
      obtain ⟨haddress, _⟩ := Bench.site_wellPlaced hw.code hbuilder hsite
      have hsame : site.address = a := Option.some.inj (hcursor.symm.trans ha)
      subst hsame
      refine ⟨site.block.close i, i, rfl, rfl, ?_⟩
      have hmodules := Bench.close_modules (i := i) (by subst hi; exact haddress)
      rw [settle, hmodules, read?_place, if_pos rfl, hread]
      rfl

end World

end Failing

namespace World

section Finality

variable {start : World}

/-- A run ends a block as often as the history says. -/
theorem Fresh.closings
    (hstart : start.Fresh)
    (calls : List (Nat × Call))
    (a : BlockAddr) :
    (start.history calls).countP (Event.closes a) =
      (a.terminator? (start.after calls).modules).toList.length := by
  have hempty : ([] : List Event).countP (Event.closes a) =
      (a.terminator? start.modules).toList.length := by
    rw [BlockAddr.terminator?, BlockAddr.read?_eq, hstart.read?_eq_none]
    rfl
  refine hstart.wellFormed.history_induction
    (P := fun modules h =>
      h.countP (Event.closes a) = (a.terminator? modules).toList.length)
    ?_ hempty calls
  intro modules h e modules' hcount hadd
  rw [List.countP_append, hcount, hadd.closings a]

/-- A closed block stays as it is. -/
theorem WellFormed.read?_after_of_closed
    {w : World} {a : BlockAddr} {block : Block}
    (hw : w.WellFormed)
    (hread : a.read? w.modules = some block)
    (hclosed : block.isClosed = true)
    (later : List (Nat × Call)) :
    a.read? (w.after later).modules = some block := by
  obtain ⟨block', hread', hgrows⟩ := (hw.grows_after later).block hread
  rw [hread', hgrows.eq_of_closed hclosed]

/--
Closing a block is final.

At most one call of a run ends a block.  A call that ends the current block of its builder leaves
the block closed by the instruction it returns.  A closed block is the same in every later world,
and there everything that any builder in it emits or ends it with fails with its fault.  The
instruction that ends a block has a greater number than each instruction in it.
-/
theorem closing_is_final
    (hstart : start.Fresh)
    (calls : List (Nat × Call))
    (a : BlockAddr) :
    (start.history calls).countP (Event.closes a) ≤ 1 ∧
    (∀ b builder t reply,
      (start.after calls).builders[b]? = some builder → builder.cursor.block = some a →
      ((start.after calls).call b (.terminate t)).1 = .ok reply →
      start.history (calls ++ [(b, .terminate t)]) = start.history calls ++
        [.placement ⟨a, true, t.draft ((start.after calls).benchOf builder).labelAt,
          builder.loc, reply⟩] ∧
      ∃ block i, reply = .instr i ∧ block.terminator = some i ∧
        a.read? (start.after (calls ++ [(b, .terminate t)])).modules = some block) ∧
    ∀ block, a.read? (start.after calls).modules = some block → block.isClosed = true →
      (∀ later,
        a.read? (start.after (calls ++ later)).modules = some block ∧
        ∀ (b : Nat) builder,
          (start.after (calls ++ later)).builders[b]? = some builder →
          builder.cursor.block = some a →
          (∀ e d, e.draft = .ok d →
            ∃ error, ((start.after (calls ++ later)).call b (.emit e)).1 = .error error ∧
              error.kind = .alreadyTerminated) ∧
          ∀ t, ∃ error, ((start.after (calls ++ later)).call b (.terminate t)).1 = .error error ∧
            error.kind = .alreadyTerminated) ∧
      ∀ t, block.terminator = some t → ∀ i ∈ block.instrs, i.id < t.id := by
  have hreachable : (start.after calls).Reachable := ⟨start, calls, hstart, rfl⟩
  have hwell := hreachable.wellFormed
  refine ⟨?_, ?_, ?_⟩
  · rw [hstart.closings]
    cases a.terminator? (start.after calls).modules <;> simp
  · intro b builder t reply hb ha hok
    obtain ⟨block, hblock, hevent⟩ := event?_terminate hb hok
    have hsame : block = a := Option.some.inj (hblock.symm.trans ha)
    subst hsame
    constructor
    · rw [history_concat, hevent, Option.toList_some]
    · rw [after_append]
      exact hwell.read?_after_terminate hb ha hok
  · intro block hread hclosed
    constructor
    · intro later
      rw [after_append]
      have hread' := hwell.read?_after_of_closed hread hclosed later
      refine ⟨hread', ?_⟩
      intro b builder hb ha
      constructor
      · intro e d hd
        exact ⟨_, call_emit_of_closed hb ha hread' hclosed hd, rfl⟩
      · intro t
        exact ⟨_, call_terminate_of_closed t hb ha hread' hclosed, rfl⟩
    · intro t ht i hi
      rw [BlockAddr.read?_eq, Option.bind_eq_some_iff] at hread
      obtain ⟨f, hf, hblock⟩ := hread
      have hnumbered := hreachable.numbered _ f hf
      exact hnumbered.id_lt_terminator block (List.mem_of_getElem? hblock) t ht i hi

/-- The block of the example is closed, with the greatest number last, and stays as it is. -/
theorem pairCalls_closing :
    (pair.history pairCalls).countP (Event.closes ⟨0, 0, 0⟩) ≤ 1 ∧
      ∃ block, BlockAddr.read? ⟨0, 0, 0⟩ (pair.after pairCalls).modules = some block ∧
        block.instrs.map (·.id) = [2, 1] ∧ block.terminator.map (·.id) = some 3 ∧
        ∀ later,
          BlockAddr.read? ⟨0, 0, 0⟩ (pair.after (pairCalls ++ later)).modules = some block := by
  have hread : (BlockAddr.read? ⟨0, 0, 0⟩ (pair.after pairCalls).modules).map
      (fun b => (b.isClosed, b.instrs.map (·.id), b.terminator.map (·.id))) =
        some (true, [2, 1], some 3) := by
    decide +kernel
  obtain ⟨block, hblock, hvalues⟩ := Option.map_eq_some_iff.mp hread
  simp only [Prod.mk.injEq] at hvalues
  obtain ⟨hclosed, hinstrs, hterminator⟩ := hvalues
  obtain ⟨hcount, _, hfinal⟩ := closing_is_final pair_fresh pairCalls ⟨0, 0, 0⟩
  refine ⟨hcount, block, hblock, hinstrs, hterminator, ?_⟩
  intro later
  exact ((hfinal block hblock hclosed).1 later).1

end Finality

end World

end ThreeAddress
