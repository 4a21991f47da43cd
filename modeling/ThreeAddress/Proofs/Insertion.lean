import Mathlib.Data.List.Forall2
import ThreeAddress.Proofs.Replay

/-!
# Placing one instruction

An emission puts one instruction into one block, at the anchor or, when the block has become
shorter, at its end, and one function gives out a number under one name.  A termination fills the
slot behind a block instead.  This holds wherever a builder stands in an open block whose parent
names a function, also after edits that no builder took part in, and nothing else changes
(`World.placement_is_one_insertion`).

`Placed` says this of the code, and `Bench.Touches` says of one block what any call does to it.
-/

namespace ThreeAddress

section Definitions

/-- The name that an emission gives to its instruction; a store gives none. -/
def Emission.name : Emission Value → String
  | .binary _ _ _ name | .intCompare _ _ _ _ name | .floatCompare _ _ _ _ name
  | .cast _ _ _ name | .alloca _ _ name | .load _ name => name
  | .store .. => ""

/-- The call places an instruction if it succeeds. -/
def Call.places : Call → Bool
  | .emit _ | .terminate _ => true
  | _ => false

/-- A module without its functions. -/
def Module.header (m : Module) : Module :=
  { m with functions := [] }

/--
How the code of all modules changes when a function gives out a number under a name and a block is
replaced: in these two places, and nowhere else.
-/
structure Placed
    (modules : List Module)
    (numbering : FunctionAddr)
    (name : String)
    (a : BlockAddr)
    (replaced : Block)
    (modules' : List Module) : Prop where
  headers : modules'.map Module.header = modules.map Module.header
  function : ∀ fa : FunctionAddr, fa.read? modules' = (fa.read? modules).map fun f =>
    { f with
      names := if fa = numbering then f.names ++ [name] else f.names
      blocks := if fa = a.function then f.blocks.set a.blockAt replaced else f.blocks }

/-- What a call does to the block at an address, and how it comes to it. -/
inductive Bench.Touches (s : Bench) (a : BlockAddr) (b : Block) : Call → Reply → Bench → Block → Prop
  | apart
      {c : Call} {reply : Reply} {s' : Bench}
      (helsewhere : c.places = true → s.builder.cursor.block ≠ some a) :
      Touches s a b c reply s' b
  | emit
      {e : Emission Value} {d : Draft} {i : Instr}
      (ha : s.builder.cursor.block = some a)
      (hopen : b.terminator = none)
      (hdraft : e.draft = .ok d)
      (hi : i = s.stamp b d) :
      Touches s a b (.emit e) (.value i.handle)
        (s.insert ⟨a, s.builder.cursor.anchor, b⟩ i)
        (b.insert (min s.builder.cursor.anchor b.size) i)
  | terminate
      {t : Termination Value BlockAddr} {i : Instr}
      (ha : s.builder.cursor.block = some a)
      (hopen : b.terminator = none)
      (hi : i = s.stamp b (t.draft s.labelAt)) :
      Touches s a b (.terminate t) (.instr i)
        (s.close ⟨a, s.builder.cursor.anchor, b⟩ i)
        (b.close i)

/-- The instruction that was put into a block by a call of the history. -/
structure Placement.Put (p : Placement) (i : Instr) : Prop where
  draft_eq : i.toDraft = p.draft
  loc_eq : i.loc = p.loc
  reply_eq : p.reply = if p.closing then .instr i else .value i.handle

/-- The calls of a history that put something into the block at an address. -/
def placementsIn (a : BlockAddr) (h : List Event) : List Placement :=
  h.filterMap fun
    | .declaration _ => none
    | .placement p => if p.block = a then some p else none

/--
How a block changes by placements: each puts in its instruction, once, between those that are there
or behind them all.
-/
structure Block.Takes (b : Block) (ps : List Placement) (b' : Block) : Prop where
  label_eq : b'.label = b.label
  parent_eq : b'.parent = b.parent
  contents_perm : ∃ placed, List.Forall₂ Placement.Put ps placed ∧
    b'.contents.Perm (b.contents ++ placed)
  instrs_sublist : b.instrs.Sublist b'.instrs
  size_eq : b'.size = b.size + ps.countP (!·.closing)

end Definitions

section Frames

variable {modules modules' : List Module} {numbering : FunctionAddr} {name : String}
  {a : BlockAddr} {b replaced : Block}

/-- An emission drafts its instruction under the name it gives. -/
theorem Emission.draft_name
    {e : Emission Value} {d : Draft}
    (hdraft : e.draft = .ok d) :
    d.name = e.name := by
  cases draft_eq_ok_iff.mp hdraft <;> rfl

/-- A change of a function changes nothing else of its module. -/
theorem FunctionAddr.headers_modify
    (fa : FunctionAddr)
    (change : Function → Function)
    (modules : List Module) :
    (fa.modify change modules).map Module.header = modules.map Module.header := by
  have hheader : ∀ m : Module, (m.modifyFunction fa.functionAt change).header = m.header :=
    fun _ => rfl
  exact map_modify_of_eq hheader modules fa.moduleAt

/-- A change is seen as a change of every function that changes one of them. -/
theorem FunctionAddr.read?_modify_eq_map
    (fa fa' : FunctionAddr)
    (change : Function → Function)
    (modules : List Module) :
    fa'.read? (fa.modify change modules) =
      (fa'.read? modules).map fun f => if fa' = fa then change f else f := by
  rw [read?_modify]
  by_cases haddr : fa' = fa
  · simp [haddr]
  · simp [haddr]

theorem Placed.read?_self
    (hplaced : Placed modules numbering name a replaced modules')
    (hread : a.read? modules = some b) :
    a.read? modules' = some replaced := by
  rw [BlockAddr.read?_eq, Option.bind_eq_some_iff] at hread
  obtain ⟨f, hf, hb⟩ := hread
  have hlt := (List.getElem?_eq_some_iff.mp hb).1
  simp [BlockAddr.read?_eq, hplaced.function, hf, hlt]

theorem Placed.read?_of_ne
    (hplaced : Placed modules numbering name a replaced modules')
    {a' : BlockAddr}
    (hne : a' ≠ a) :
    a'.read? modules' = a'.read? modules := by
  rw [BlockAddr.read?_eq, BlockAddr.read?_eq, hplaced.function]
  cases a'.function.read? modules with
  | none =>
      rfl
  | some f =>
      by_cases hfunction : a'.function = a.function
      · have hblock : a.blockAt ≠ a'.blockAt := by
          intro hblock
          obtain ⟨m, k, j⟩ := a
          obtain ⟨m', k', j'⟩ := a'
          cases hfunction
          cases hblock
          exact hne rfl
        simp [hfunction, List.getElem?_set_ne hblock]
      · simp [hfunction]

end Frames

section Benches

namespace Bench

variable {s s' : Bench} {site : Site}

/-- The number of an instruction is given out at home, and the block under the cursor is changed. -/
theorem placed_commit
    (hsite : s.site? = some site)
    (i : Instr)
    (change : Block → Block) :
    Placed s.modules ⟨s.builder.home, i.parent⟩ i.name site.address (change site.block)
      (s.commit site i change).modules := by
  obtain ⟨numbering, hnumbering⟩ : ∃ numbering, numbering = FunctionAddr.mk s.builder.home i.parent :=
    ⟨_, rfl⟩
  have hmodules : (s.commit site i change).modules =
      site.address.function.modify (fun f => f.modifyBlock site.address.blockAt change)
        (numbering.modify (fun f => f.reserve i.name) s.modules) := by
    rw [hnumbering]
    rfl
  rw [← hnumbering]
  constructor
  · rw [hmodules, FunctionAddr.headers_modify, FunctionAddr.headers_modify]
  · intro fa
    rw [hmodules, FunctionAddr.read?_modify_eq_map, FunctionAddr.read?_modify_eq_map,
      Option.map_map]
    refine Option.map_congr fun f hf => ?_
    -- Where the block is, the function that is read is the one that holds it.
    have hset : fa = site.address.function →
        f.blocks.modify site.address.blockAt change =
          f.blocks.set site.address.blockAt (change site.block) := by
      rintro rfl
      obtain ⟨_, hread, _⟩ := site?_eq_some_iff.mp hsite
      rw [BlockAddr.read?_eq, hf] at hread
      rw [List.modify_eq_set_getElem?, show f.blocks[site.address.blockAt]? = _ from hread]
      rfl
    by_cases hholder : fa = site.address.function
    · rw [Function.comp_apply, if_pos hholder, if_pos hholder, ← hset hholder]
      split <;> rfl
    · rw [Function.comp_apply, if_neg hholder, if_neg hholder]
      split <;> rfl

theorem placed_insert
    (hsite : s.site? = some site)
    (i : Instr) :
    Placed s.modules ⟨s.builder.home, i.parent⟩ i.name site.address
      (site.block.insert (insertPosition site) i) (s.insert site i).modules := by
  simp only [insert, record_modules, moveTo]
  exact placed_commit hsite i fun b => b.insert (insertPosition site) i

theorem placed_close
    (hsite : s.site? = some site)
    (i : Instr) :
    Placed s.modules ⟨s.builder.home, i.parent⟩ i.name site.address
      (site.block.close i) (s.close site i).modules := by
  simp only [close, record_modules]
  exact placed_commit hsite i fun b => b.close i

/-- A function stays as it is when another one is started. -/
theorem function_read?_openFunction
    {fa : FunctionAddr} {g : Function}
    (hread : fa.read? s.modules = some g)
    (f : Function) :
    fa.read? (s.openFunction f).modules = some g := by
  have hmodules : (s.openFunction f).modules = s.modules.modify s.builder.home fun m =>
      (m.supplyTarget s.builder.options.target).addFunction f :=
    rfl
  rw [hmodules]
  cases hhome : s.modules[s.builder.home]? with
  | none =>
      rw [List.modify_eq_self (List.getElem?_eq_none_iff.mp hhome), hread]
  | some m =>
      have hne : fa ≠ ⟨s.builder.home, m.functions.length⟩ := by
        rintro rfl
        rw [read?_length hhome] at hread
        cases hread
      rw [read?_addFunction hhome, if_neg hne, hread]

/-- A block stays as it is when a function is started. -/
theorem read?_openFunction
    {a : BlockAddr} {b : Block}
    (hread : a.read? s.modules = some b)
    (f : Function) :
    a.read? (s.openFunction f).modules = some b := by
  rw [BlockAddr.read?_eq, Option.bind_eq_some_iff] at hread
  obtain ⟨g, hg, hb⟩ := hread
  rw [BlockAddr.read?_eq, function_read?_openFunction hg f]
  exact hb

/-- A block stays as it is when a block is created. -/
theorem read?_createBlock
    {modules : List Module} {a : BlockAddr} {b : Block}
    (hread : a.read? modules = some b)
    (fa : FunctionAddr)
    (label : String) :
    a.read? (fa.modify (fun f => f.addBlock label) modules) = some b := by
  rw [BlockAddr.read?_eq, Option.bind_eq_some_iff] at hread
  obtain ⟨f, hf, hb⟩ := hread
  rw [BlockAddr.read?_eq, FunctionAddr.read?_modify_eq_map, hf]
  have hlt := (List.getElem?_eq_some_iff.mp hb).1
  simp only [Option.map_some, Option.bind_some]
  split
  · simp only [Function.addBlock, List.getElem?_append_left hlt, hb]
  · exact hb

/-- What is placed in the block under the cursor is placed in a given block, or apart from it. -/
theorem read?_placed
    {modules' : List Module} {numbering : FunctionAddr} {name : String}
    {a : BlockAddr} {b replaced : Block}
    (hsite : s.site? = some site)
    (hplaced : Placed s.modules numbering name site.address replaced modules')
    (hread : a.read? s.modules = some b) :
    (s.builder.cursor.block = some a ∧ site = ⟨a, s.builder.cursor.anchor, b⟩ ∧
      a.read? modules' = some replaced) ∨
    (s.builder.cursor.block ≠ some a ∧ a.read? modules' = some b) := by
  obtain ⟨hcursor, hsame, hanchor⟩ := site?_eq_some_iff.mp hsite
  obtain ⟨address, anchor, block⟩ := site
  by_cases ha : a = address
  · subst ha
    cases hread.symm.trans hsame
    cases hanchor
    exact Or.inl ⟨hcursor, rfl, hplaced.read?_self hread⟩
  · refine Or.inr ⟨?_, (hplaced.read?_of_ne ha).trans hread⟩
    intro hblock
    exact ha (Option.some.inj (hblock.symm.trans hcursor))

/-- What a successful call does to a block: `Touches` lists all of it. -/
theorem Step.touches
    {c : Call} {reply : Reply} {a : BlockAddr} {b : Block}
    (hstep : s.Step c reply s')
    (hread : a.read? s.modules = some b) :
    ∃ b', a.read? s'.modules = some b' ∧ s.Touches a b c reply s' b' := by
  cases hstep with
  | startFunction hcheck hf =>
      exact ⟨b, read?_openFunction hread _, .apart nofun⟩
  | createBlock hf hcheck =>
      exact ⟨b, read?_createBlock hread _ _, .apart nofun⟩
  | param hparam | position hlocate | positionAt hentry | setLoc | constant hconstant =>
      exact ⟨b, hread, .apart nofun⟩
  | @emit e d site i hdraft hsite hi =>
      obtain ⟨hsite, hopen⟩ := openSite_eq_ok_iff.mp hsite
      rcases read?_placed hsite (placed_insert hsite i) hread with
        ⟨ha, rfl, hread'⟩ | ⟨hne, hread'⟩
      · exact ⟨_, hread', .emit ha hopen hdraft hi⟩
      · exact ⟨b, hread', .apart fun _ => hne⟩
  | @terminate t d site i hdraft hsite hi =>
      obtain ⟨hsite, hopen⟩ := openSite_eq_ok_iff.mp hsite
      rcases read?_placed hsite (placed_close hsite i) hread with
        ⟨ha, rfl, hread'⟩ | ⟨hne, hread'⟩
      · exact ⟨_, hread', .terminate ha hopen (hdraft ▸ hi)⟩
      · exact ⟨b, hread', .apart fun _ => hne⟩

/-- A placement in the history is in the caller's current block. -/
theorem event?_eq_placement
    {c : Call} {reply : Reply} {p : Placement}
    (hevent : s.event? reply c = some (.placement p)) :
    c.places = true ∧ s.builder.cursor.block = some p.block := by
  cases c with
  | emit e =>
      simp only [event?, Option.bind_eq_bind, Option.bind_eq_some_iff] at hevent
      obtain ⟨d, _, a, ha, hp⟩ := hevent
      cases hp
      exact ⟨rfl, ha⟩
  | terminate t =>
      simp only [event?, Option.bind_eq_bind, Option.bind_eq_some_iff] at hevent
      obtain ⟨a, ha, hp⟩ := hevent
      cases hp
      exact ⟨rfl, ha⟩
  | _ =>
      cases hevent

end Bench

end Benches

section Runs

namespace Block

variable {b b' b'' : Block} {ps ps' : List Placement}

theorem Takes.refl
    (b : Block) :
    b.Takes [] b :=
  ⟨rfl, rfl, ⟨[], .nil, by simp⟩, List.Sublist.refl _, rfl⟩

theorem Takes.trans
    (h : b.Takes ps b')
    (h' : b'.Takes ps' b'') :
    b.Takes (ps ++ ps') b'' where
  label_eq := h'.label_eq.trans h.label_eq
  parent_eq := h'.parent_eq.trans h.parent_eq
  contents_perm := by
    obtain ⟨placed, hplaced, hperm⟩ := h.contents_perm
    obtain ⟨placed', hplaced', hperm'⟩ := h'.contents_perm
    refine ⟨placed ++ placed', List.rel_append hplaced hplaced', ?_⟩
    rw [← List.append_assoc]
    exact hperm'.trans (hperm.append_right placed')
  instrs_sublist := h.instrs_sublist.trans h'.instrs_sublist
  size_eq := by
    rw [h'.size_eq, h.size_eq, List.countP_append, Nat.add_assoc]

theorem takes_insert
    {p : Placement} {i : Instr}
    (hopen : b.terminator = none)
    (hclosing : p.closing = false)
    (hput : p.Put i)
    (position : Nat) :
    b.Takes [p] (b.insert position i) where
  label_eq := rfl
  parent_eq := rfl
  contents_perm := by
    refine ⟨[i], .cons hput .nil, (b.contents_insert_perm position i).trans ?_⟩
    exact (List.perm_append_singleton i b.contents).symm
  instrs_sublist := (grows_insert hopen position i).instrs_sublist
  size_eq := by
    have hlength := (b.instrs_insert_perm position i).length_eq
    simpa [size, hclosing] using hlength

theorem takes_close
    {p : Placement} {i : Instr}
    (hopen : b.terminator = none)
    (hclosing : p.closing = true)
    (hput : p.Put i) :
    b.Takes [p] (b.close i) where
  label_eq := rfl
  parent_eq := rfl
  contents_perm := by
    refine ⟨[i], .cons hput .nil, (contents_close_perm hopen i).trans ?_⟩
    exact (List.perm_append_singleton i b.contents).symm
  instrs_sublist := List.Sublist.refl _
  size_eq := by simp [size, close, hclosing]

end Block

theorem placementsIn_append
    (a : BlockAddr)
    (h h' : List Event) :
    placementsIn a (h ++ h') = placementsIn a h ++ placementsIn a h' :=
  List.filterMap_append

/-- A call that touches a block puts into it what it adds to the history for the block. -/
theorem Bench.Touches.takes
    {s s' : Bench} {a : BlockAddr} {b b' : Block} {c : Call} {reply : Reply}
    (htouches : s.Touches a b c reply s' b') :
    b.Takes (placementsIn a (s.event? reply c).toList) b' := by
  cases htouches with
  | apart helsewhere =>
      have hnone : placementsIn a (s.event? reply c).toList = [] := by
        cases hevent : s.event? reply c with
        | none =>
            rfl
        | some event =>
            cases event with
            | declaration d =>
                rfl
            | placement p =>
                obtain ⟨hplaces, hblock⟩ := event?_eq_placement hevent
                have hne : p.block ≠ a := fun h => helsewhere hplaces (h ▸ hblock)
                simp [placementsIn, hne]
      rw [hnone]
      exact .refl b
  | @emit e d i ha hopen hdraft hi =>
      rw [event?_of_draft hdraft ha]
      have hput : Placement.Put ⟨a, false, d, s.builder.loc, .value i.handle⟩ i := by
        subst hi
        exact ⟨rfl, rfl, rfl⟩
      simpa [placementsIn] using Block.takes_insert hopen rfl hput _
  | @terminate t i ha hopen hi =>
      rw [event?_of_terminate ha]
      have hput : Placement.Put ⟨a, true, t.draft s.labelAt, s.builder.loc, .instr i⟩ i := by
        subst hi
        exact ⟨rfl, rfl, rfl⟩
      simpa [placementsIn] using Block.takes_close hopen rfl hput

/-- An addition gives out, in every function, the numbers of what it places there. -/
theorem Addition.names_eq
    {modules modules' : List Module} {e : Option Event} {fa : FunctionAddr} {f : Function}
    (hadd : Addition modules e modules')
    (hf : fa.read? modules = some f) :
    ∃ f', fa.read? modules' = some f' ∧
      f'.names = f.names ++ (placementsInto fa e.toList).map (·.draft.name) := by
  -- An instruction that is placed in a function gets its number there.
  have hplace : ∀ (p : Placement) {id block change},
      ∃ f', fa.read? (p.block.function.modify
          (fun g => g.place block (p.instr id) change) modules) = some f' ∧
        f'.names = f.names ++ (placementsInto fa [.placement p]).map (·.draft.name) := by
    intro p id block change
    rw [FunctionAddr.read?_modify_eq_map, hf]
    refine ⟨_, rfl, ?_⟩
    by_cases hfa : fa = p.block.function
    · simp [placementsInto, hfa, Placement.instr]
    · simp [placementsInto, hfa, Ne.symm hfa]
  cases hadd with
  | nothing =>
      exact ⟨f, hf, by simp [placementsInto]⟩
  | @function d m target hm hend hname hnew hparams =>
      have hne : fa ≠ ⟨d.function.moduleAt, m.functions.length⟩ := by
        rintro rfl
        rw [read?_length hm] at hf
        cases hf
      exact ⟨f, by rw [read?_addFunction hm, if_neg hne, hf], by simp [placementsInto]⟩
  | @block fa' g label hg hlabel hnew =>
      rw [FunctionAddr.read?_modify_eq_map, hf]
      refine ⟨_, rfl, ?_⟩
      split <;> simp [placementsInto, Function.addBlock]
  | instr hg hb hopen hclosing hdraft hreply =>
      exact hplace _
  | terminator hg hb hopen hclosing hdraft hreply =>
      exact hplace _

namespace World

variable {w : World} {a : BlockAddr} {block : Block}

/-- A call whose plan has a reply succeeds with it. -/
theorem call_of_plan
    {b : Nat} {c : Call} {builder : Builder} {reply : Reply} {s : Bench}
    (hb : w.builders[b]? = some builder)
    (hplan : c.plan (w.benchOf builder) = .ok (reply, s)) :
    w.call b c = (.ok reply, w.settle b s) := by
  rw [call_eq hb, Call.perform_eq_plan, hplan]

theorem takes_call
    (hread : a.read? w.modules = some block)
    (b : Nat)
    (c : Call) :
    ∃ block', a.read? (w.call b c).2.modules = some block' ∧
      block.Takes (placementsIn a (w.event? b c).toList) block' := by
  have hcase := w.callCase b c
  generalize hcall : w.call b c = result at hcase
  cases hcase with
  | absent hb =>
      rw [event?_absent hb]
      exact ⟨block, hread, .refl block⟩
  | done hb hstep =>
      rw [event?_of_ok hb (congrArg Prod.fst hcall)]
      obtain ⟨block', hread', htouches⟩ := hstep.touches hread
      exact ⟨block', hread', htouches.takes⟩
  | failed hb =>
      rw [event?_of_error (congrArg Prod.fst hcall)]
      exact ⟨block, hread, .refl block⟩

/-- A run puts into a block what its history has for the block, and nothing else. -/
theorem takes_after
    (hread : a.read? w.modules = some block)
    (calls : List (Nat × Call)) :
    ∃ block', a.read? (w.after calls).modules = some block' ∧
      block.Takes (placementsIn a (w.history calls)) block' := by
  induction calls generalizing w block with
  | nil =>
      exact ⟨block, hread, .refl block⟩
  | cons first rest ih =>
      obtain ⟨b, c⟩ := first
      obtain ⟨block', hread', htakes⟩ := takes_call hread b c
      obtain ⟨block'', hread'', htakes'⟩ := ih hread'
      refine ⟨block'', hread'', ?_⟩
      rw [history, placementsIn_append]
      exact htakes.trans htakes'

/-- A run gives out, in every function, the numbers of what it places there, in call order. -/
theorem WellFormed.names_after
    {fa : FunctionAddr} {f : Function}
    (hw : w.WellFormed)
    (hf : fa.read? w.modules = some f)
    (calls : List (Nat × Call)) :
    ∃ f', fa.read? (w.after calls).modules = some f' ∧
      f'.names = f.names ++ (placementsInto fa (w.history calls)).map (·.draft.name) := by
  refine hw.history_induction
    (P := fun modules h => ∃ f', fa.read? modules = some f' ∧
      f'.names = f.names ++ (placementsInto fa h).map (·.draft.name))
    ?_ (h := []) ⟨f, hf, by simp [placementsInto]⟩ calls
  rintro modules h e modules' ⟨g, hg, hnames⟩ hadd
  obtain ⟨f', hf', hnames'⟩ := hadd.names_eq hg
  refine ⟨f', hf', ?_⟩
  rw [hnames', hnames, placementsInto_append, List.map_append, List.append_assoc]

/--
A placement is one insertion.

A builder stands in an open block whose parent names a function of its module; the block need not
be in this function, and the anchor need not be in the block.  An emission whose arguments pass
their checks puts its instruction, made of these arguments, at the anchor, or at the end if the
anchor is behind it, between the instructions that were there.  The instruction has the next number
of the named function, which gives it out under the name given; the anchor moves behind the
instruction, so it is in the block; and the value that is returned is that of the instruction.  A
termination fills the slot behind the block and gives out a number without a name, and the cursor
stays.  Nothing else changes, in any function, module or builder.

So over any run every block gets the instructions of the placements into it, each once, in between
those that it had, which keep their order; and over a run from a well-formed world every function
gives out one number for each placement into it.
-/
theorem placement_is_one_insertion
    {b : Nat} {builder : Builder} {f : Function}
    (hb : w.builders[b]? = some builder)
    (ha : builder.cursor.block = some a)
    (hread : a.read? w.modules = some block)
    (hopen : block.terminator = none)
    (hf : FunctionAddr.read? ⟨builder.home, block.parent⟩ w.modules = some f) :
    (∀ e d, e.draft = .ok d →
      let position := min builder.cursor.anchor block.size
      let i : Instr := { d with id := f.nextId, parent := block.parent, loc := builder.loc }
      let v : Value := .temp f.nextId d.type block.parent
      let block' : Block :=
        { block with instrs := block.instrs.take position ++ i :: block.instrs.drop position }
      e.Drafted d ∧ ∃ w', w.call b (.emit e) = (.ok (.value v), w') ∧
        Placed w.modules ⟨builder.home, block.parent⟩ e.name a block' w'.modules ∧
        w'.builders =
          w.builders.set b { builder with cursor := { builder.cursor with anchor := position + 1 } } ∧
        position + 1 ≤ block'.size ∧
        (i.hasResult = true → i.result? = some v)) ∧
    (∀ t : Termination Value BlockAddr,
      let i : Instr :=
        { t.draft (w.benchOf builder).labelAt with
          id := f.nextId, parent := block.parent, loc := builder.loc }
      t.Drafted w.modules i.toDraft ∧ ∃ w', w.call b (.terminate t) = (.ok (.instr i), w') ∧
        Placed w.modules ⟨builder.home, block.parent⟩ "" a
          { block with terminator := some i } w'.modules ∧
        w'.builders = w.builders) ∧
    ∀ calls,
      (∀ (a' : BlockAddr) block', a'.read? w.modules = some block' →
        ∃ block'', a'.read? (w.after calls).modules = some block'' ∧
          block'.Takes (placementsIn a' (w.history calls)) block'') ∧
      (w.WellFormed → ∀ (fa : FunctionAddr) g, fa.read? w.modules = some g →
        ∃ g', fa.read? (w.after calls).modules = some g' ∧
          g'.names = g.names ++ (placementsInto fa (w.history calls)).map (·.draft.name)) := by
  have hsite : (w.benchOf builder).site? = some ⟨a, builder.cursor.anchor, block⟩ :=
    site?_benchOf ha hread
  have hopenSite : ∀ op, (w.benchOf builder).openSite op =
      .ok ⟨a, builder.cursor.anchor, block⟩ :=
    fun op => Bench.openSite_eq_ok_iff.mpr ⟨hsite, hopen⟩
  have hstamp : ∀ d, (w.benchOf builder).stamp block d =
      { d with id := f.nextId, parent := block.parent, loc := builder.loc } := by
    intro d
    have hfunction : (w.benchOf builder).function? block.parent = some f := by
      rw [Bench.function?_eq]
      exact hf
    simp [Bench.stamp, hfunction]
  refine ⟨?_, ?_, fun calls => ⟨fun a' block' hread' => takes_after hread' calls,
    fun hw fa g hg => hw.names_after hg calls⟩⟩
  · intro e d hdraft position i v block'
    refine ⟨Emission.draft_eq_ok_iff.mp hdraft,
      w.settle b ((w.benchOf builder).insert ⟨a, builder.cursor.anchor, block⟩ i), ?_, ?_, ?_, ?_,
      ?_⟩
    · refine call_of_plan hb ?_
      simp only [Call.plan, hdraft, Plan.ok_bind, hopenSite, hstamp, Plan.pure_eq_ok]
      rfl
    · rw [← Emission.draft_name hdraft]
      exact Bench.placed_insert hsite i
    · exact congrArg (w.builders.set b) (Bench.insert_builder _ i)
    · have hlength : block'.size = block.size + 1 := (block.instrs_insert_perm position i).length_eq
      omega
    · intro hresult
      rw [Instr.result?, if_pos hresult]
      rfl
  · intro t i
    refine ⟨(w.benchOf builder).drafted_termination t,
      w.settle b ((w.benchOf builder).close ⟨a, builder.cursor.anchor, block⟩ i), ?_, ?_, ?_⟩
    · refine call_of_plan hb ?_
      simp only [Call.plan, hopenSite, hstamp, Plan.ok_bind, Plan.pure_eq_ok]
      rfl
    · have hplaced := Bench.placed_close hsite i
      rw [show i.name = "" from t.draft_name _] at hplaced
      exact hplaced
    · obtain ⟨hlt, hget⟩ := List.getElem?_eq_some_iff.mp hb
      rw [settle, Bench.close_builder, benchOf_builder, ← hget, List.set_getElem_self]

/--
A function whose block has been shortened and given another parent: the anchor of the builder that
stands in the block is behind its end.
-/
def edited : World where
  modules := [{ functions := [
    { name := "f"
      names := ["x", "y"]
      params := [{ name := "x", type := (Ty.int 32).pointer }]
      blocks := [{
        label := "entry"
        parent := 1
        instrs := [{ op := .load, type := Ty.int 32, name := "y", id := 1 }] }] },
    { name := "g", index := 1, names := ["u"] }] }]
  builders := [{ cursor := ⟨some ⟨0, 0⟩, some ⟨0, 0, 0⟩, 5⟩ }, {}]

/-- A load goes to the end of the block, and the other function gives it its number. -/
theorem edited_insertion :
    let x : Value := .temp 0 (Ty.int 32).pointer 0
    ∃ w', edited.call 0 (.emit (.load x "z")) = (.ok (.value (.temp 1 (Ty.int 32) 1)), w') ∧
      (FunctionAddr.read? ⟨0, 0⟩ w'.modules).map (fun f =>
        (f.names, f.blocks.map fun b => b.instrs.map (·.name))) =
          some (["x", "y"], [["y", "z"]]) ∧
      (FunctionAddr.read? ⟨0, 1⟩ w'.modules).map Function.names = some ["u", "z"] ∧
      w'.builders.map (·.cursor.anchor) = [2, 0] := by
  intro x
  obtain ⟨_, w', hcall, hplaced, hbuilders, _⟩ :=
    (placement_is_one_insertion (w := edited) (b := 0) rfl rfl rfl rfl rfl).1 (.load x "z") _ rfl
  refine ⟨w', hcall, ?_, ?_, ?_⟩
  · rw [hplaced.function]
    decide +kernel
  · rw [hplaced.function]
    decide +kernel
  · rw [hbuilders]
    rfl

end World

end Runs

end ThreeAddress
