import ThreeAddress.Proofs.Closing
import ThreeAddress.Proofs.Locality

/-!
# Names and targets keep resolving

An instruction that ends a block names the blocks it goes to by their labels, and functions and
blocks are looked up by the first that has a name or a label.  Names and labels are given once and
stay, so a look-up finds the same function or block in every later world.

For targets this needs that a block is only ever ended by jumps into its own function, which no
call checks: `World.JumpsStay` says it of a run.
-/

namespace ThreeAddress

/-- The operands of an instruction that name the blocks it goes to. -/
def Draft.targetOperands (d : Draft) : List Value :=
  match d.op with
  | .jump => d.operands.take 1
  | .branch => (d.operands.drop 1).take 2
  | _ => []

/-- A call that ends a block names targets that are blocks of the current block's function. -/
def Call.Stays (s : Bench) : Call → Prop
  | .terminate t => ∀ current ∈ s.builder.cursor.block, ∀ target ∈ t.targets,
      target.function = current.function ∧ (target.read? s.modules).isSome
  | _ => True

instance (s : Bench) : DecidablePred (Call.Stays s)
  | .terminate t => inferInstanceAs (Decidable (∀ current ∈ s.builder.cursor.block,
      ∀ target ∈ t.targets,
        target.function = current.function ∧ (target.read? s.modules).isSome))
  | .startFunction .. | .createBlock .. | .param .. | .position .. | .positionAt .. | .setLoc _
  | .constant .. | .emit _ => inferInstanceAs (Decidable True)

/-- Every jump and branch of a run is given blocks of the current block's own function. -/
def World.JumpsStay (w : World) : List (Nat × Call) → Prop
  | [] => True
  | (b, c) :: rest => (∀ s ∈ w.bench? b, c.Stays s) ∧ (w.call b c).2.JumpsStay rest

instance World.decidableJumpsStay (w : World) : DecidablePred w.JumpsStay
  | [] => inferInstanceAs (Decidable True)
  | (b, c) :: rest =>
      have := (w.call b c).2.decidableJumpsStay rest
      inferInstanceAs (Decidable ((∀ s ∈ w.bench? b, c.Stays s) ∧ (w.call b c).2.JumpsStay rest))

section LookUp

/-- Where keys differ, the search for the key of an element finds the element's position. -/
theorem findIdx?_key_eq_some
    {α β : Type} [BEq β] [LawfulBEq β]
    {key : α → β} {l : List α} {k : Nat} {x : α}
    (hl : (l.map key).Nodup)
    (hx : l[k]? = some x) :
    l.findIdx? (fun y => key y == key x) = some k := by
  obtain ⟨hk, rfl⟩ := List.getElem?_eq_some_iff.mp hx
  refine List.findIdx?_eq_some_iff_getElem.mpr ⟨hk, beq_self_eq_true _, ?_⟩
  intro j hj hkey
  have hsame : (l.map key)[j]? = (l.map key)[k]? := by
    simp [List.getElem?_eq_getElem hk, List.getElem?_eq_getElem (Nat.lt_trans hj hk),
      eq_of_beq hkey]
  have hjk : j = k := (List.getElem?_inj (by simp; omega) hl).mp hsame
  omega

/-- A label of a function is that of one block, and the search for it finds that block. -/
theorem Function.WellFormed.findBlock?_label
    {position j : Nat} {f : Function} {b : Block}
    (hf : f.WellFormed position)
    (hb : f.blocks[j]? = some b) :
    f.findBlock? b.label = some j ∧ f.blocks.filter (·.label == b.label) = [b] :=
  ⟨findIdx?_key_eq_some hf.labels_nodup hb,
    filter_key_eq_singleton hf.labels_nodup (List.mem_of_getElem? hb)⟩

/-- The search for the name of a function finds the function. -/
theorem WellFormedCode.findFunction?_name
    {modules : List Module} {m : Module} {k : Nat} {f : Function}
    (hcode : WellFormedCode modules)
    (hm : m ∈ modules)
    (hf : m.functions[k]? = some f) :
    m.findFunction? f.name = some k :=
  findIdx?_key_eq_some (hcode.names_nodup m hm) hf

end LookUp

section Terminators

/-- A closing placement in the history is what a termination of the current block adds to it. -/
theorem Bench.event?_closing
    {s : Bench} {reply : Reply} {c : Call} {p : Placement}
    (hevent : s.event? reply c = some (.placement p))
    (hclosing : p.closing = true) :
    ∃ t, c = .terminate t ∧ s.builder.cursor.block = some p.block ∧
      p.draft = t.draft s.labelAt ∧ p.reply = reply := by
  cases c with
  | terminate t =>
      simp only [event?, Option.bind_eq_bind, Option.bind_eq_some_iff] at hevent
      obtain ⟨a, ha, hp⟩ := hevent
      cases hp
      exact ⟨t, rfl, ha, rfl, rfl⟩
  | emit e =>
      simp only [event?, Option.bind_eq_bind, Option.bind_eq_some_iff] at hevent
      obtain ⟨d, _, a, _, hp⟩ := hevent
      cases hp
      cases hclosing
  | _ =>
      cases hevent

namespace World

variable {w : World} {a : BlockAddr} {t : Instr}

/-- What ends a block after a call ended it before, or the call ended it. -/
theorem WellFormed.terminator?_call
    (hw : w.WellFormed)
    {b : Nat} {c : Call}
    (ht : a.terminator? (w.call b c).2.modules = some t) :
    a.terminator? w.modules = some t ∨
      ∃ builder termination, c = .terminate termination ∧ w.builders[b]? = some builder ∧
        builder.cursor.block = some a ∧ (w.call b c).1 = .ok (.instr t) ∧
        t.toDraft = termination.draft (w.benchOf builder).labelAt := by
  have hadd := hw.addition b c
  generalize hevent : w.event? b c = event at hadd
  generalize hmodules : (w.call b c).2.modules = modules' at ht hadd
  cases hadd with
  | nothing =>
      exact Or.inl ht
  | function hm hend hname hnew hparams =>
      rw [terminator?_addFunction hm] at ht
      exact Or.inl ht
  | block hf hlabel hnew =>
      rw [terminator?_addBlock] at ht
      exact Or.inl ht
  | @instr p f block position e hf hb hopen hclosing hdraft hreply =>
      rw [terminator?_place] at ht
      split at ht
      · rename_i haddr
        subst haddr
        exact Or.inl ht
      · exact Or.inl ht
  | @terminator p f block termination label hf hb hopen hclosing hdraft hreply =>
      rw [terminator?_place] at ht
      split at ht
      · rename_i haddr
        subst haddr
        have hread : p.block.read? w.modules = some block := by
          rw [BlockAddr.read?_eq, hf, Option.bind_some, hb]
        rw [hread] at ht
        cases ht
        refine Or.inr ?_
        cases hbuilder : w.builders[b]? with
        | none =>
            rw [event?_absent hbuilder] at hevent
            cases hevent
        | some builder =>
            cases hok : (w.call b c).1 with
            | error error =>
                rw [event?_of_error hok] at hevent
                cases hevent
            | ok reply =>
                rw [event?_of_ok hbuilder hok] at hevent
                obtain ⟨termination', rfl, hcursor, hdraft', rfl⟩ :=
                  Bench.event?_closing hevent hclosing
                refine ⟨builder, termination', rfl, rfl, hcursor, ?_, hdraft'⟩
                rw [hreply, Placement.answer, if_pos hclosing]
      · exact Or.inl ht

/-- What ends a block after a run ended it before, or a call of the run ended it. -/
theorem WellFormed.terminator?_after
    (hw : w.WellFormed)
    {calls : List (Nat × Call)}
    (ht : a.terminator? (w.after calls).modules = some t) :
    a.terminator? w.modules = some t ∨
      ∃ before b builder termination rest,
        calls = before ++ (b, .terminate termination) :: rest ∧
        (w.after before).builders[b]? = some builder ∧ builder.cursor.block = some a ∧
        ((w.after before).call b (.terminate termination)).1 = .ok (.instr t) ∧
        t.toDraft = termination.draft ((w.after before).benchOf builder).labelAt := by
  induction calls generalizing w with
  | nil =>
      exact Or.inl ht
  | cons first rest ih =>
      obtain ⟨b, c⟩ := first
      rcases ih (hw.call b c) ht with
        hcall | ⟨before, b', builder, termination, rest', rfl, hb, ha, hok, hdraft⟩
      · rcases hw.terminator?_call hcall with
          hold | ⟨builder, termination, rfl, hb, ha, hok, hdraft⟩
        · exact Or.inl hold
        · exact Or.inr ⟨[], b, builder, termination, rest, rfl, hb, ha, hok, hdraft⟩
      · exact Or.inr ⟨(b, c) :: before, b', builder, termination, rest', rfl, hb, ha, hok, hdraft⟩

end World

end Terminators

section Targets

/-- The targets of a termination are recorded by their labels. -/
theorem Termination.targetOperands_draft
    (t : Termination Value BlockAddr)
    (label : BlockAddr → String) :
    (t.draft label).targetOperands = t.targets.map fun target => .block (label target) := by
  cases t <;> rfl

namespace World

/-- Every termination of a run whose jumps stay stays. -/
theorem JumpsStay.stays
    {w : World} {before rest : List (Nat × Call)} {b : Nat} {builder : Builder} {c : Call}
    (hjumps : w.JumpsStay (before ++ (b, c) :: rest))
    (hb : (w.after before).builders[b]? = some builder) :
    c.Stays ((w.after before).benchOf builder) := by
  induction before generalizing w with
  | nil =>
      refine hjumps.1 _ ?_
      have hb : w.builders[b]? = some builder := hb
      simp [bench?, hb, benchOf]
  | cons first before ih =>
      exact ih hjumps.2 hb

/-- A label that a block had once finds that block, and no other, in every later world. -/
theorem WellFormed.label_resolves
    {w : World} {a : BlockAddr} {b : Block}
    (hw : w.WellFormed)
    (hread : a.read? w.modules = some b)
    (later : List (Nat × Call)) :
    ∃ f b', a.function.read? (w.after later).modules = some f ∧
      f.blocks[a.blockAt]? = some b' ∧
      f.findBlock? b.label = some a.blockAt ∧ f.blocks.filter (·.label == b.label) = [b'] := by
  obtain ⟨b', hread', hgrows⟩ := (hw.grows_after later).block hread
  rw [BlockAddr.read?_eq, Option.bind_eq_some_iff] at hread'
  obtain ⟨f, hf, hb'⟩ := hread'
  have hresolve := ((hw.after later).code.function _ f hf).findBlock?_label hb'
  rw [hgrows.label_eq] at hresolve
  exact ⟨f, b', hf, hb', hresolve⟩

/-- The name of a function finds the function in every later world. -/
theorem WellFormed.name_resolves
    {w : World} {a : FunctionAddr} {f : Function}
    (hw : w.WellFormed)
    (hread : a.read? w.modules = some f)
    (later : List (Nat × Call)) :
    ∃ m f', (w.after later).modules[a.moduleAt]? = some m ∧
      m.functions[a.functionAt]? = some f' ∧ f.Grows f' ∧
      m.findFunction? f.name = some a.functionAt := by
  obtain ⟨f', hread', hgrows⟩ := (hw.grows_after later).function a f hread
  obtain ⟨m, hm, hf'⟩ := Option.bind_eq_some_iff.mp hread'
  have hfind := (hw.after later).code.findFunction?_name (List.mem_of_getElem? hm) hf'
  rw [hgrows.name_eq] at hfind
  exact ⟨m, f', hm, hf', hgrows, hfind⟩

variable {start : World}

/--
Names, labels and targets keep resolving.

In a run whose jumps stay in their functions, what ends a block was put there by a call of the run,
on a builder whose current block that was.  Its target operands are the labels that the blocks
given to the call had.  In every later world such a label is that of one block of the function, and
the search for it finds the block that was given.

Whatever the jumps are, the name of a function finds the function in every later world, and the
label of a block in it finds the block.
-/
theorem names_keep_resolving
    (hstart : start.Fresh)
    (calls : List (Nat × Call)) :
    (start.JumpsStay calls →
      ∀ a t, BlockAddr.terminator? a (start.after calls).modules = some t →
        ∃ before b builder termination rest,
          calls = before ++ (b, .terminate termination) :: rest ∧
          (start.after before).builders[b]? = some builder ∧ builder.cursor.block = some a ∧
          ((start.after before).call b (.terminate termination)).1 = .ok (.instr t) ∧
          let label := ((start.after before).benchOf builder).labelAt
          t.targetOperands = termination.targets.map (fun target => .block (label target)) ∧
          ∀ target ∈ termination.targets, target.function = a.function ∧
            ∀ later, ∃ f block,
              a.function.read? (start.after (calls ++ later)).modules = some f ∧
              f.blocks[target.blockAt]? = some block ∧
              f.findBlock? (label target) = some target.blockAt ∧
              f.blocks.filter (·.label == label target) = [block]) ∧
    ∀ a f, FunctionAddr.read? a (start.after calls).modules = some f →
      ∀ later, ∃ m f', (start.after (calls ++ later)).modules[a.moduleAt]? = some m ∧
        m.functions[a.functionAt]? = some f' ∧
        f'.name = f.name ∧ m.findFunction? f.name = some a.functionAt ∧
        ∀ (j : Nat) b, f.blocks[j]? = some b →
          ∃ b', f'.blocks[j]? = some b' ∧ b'.label = b.label ∧ f'.findBlock? b.label = some j := by
  constructor
  · intro hjumps a t ht
    rcases hstart.wellFormed.terminator?_after ht with
      hold | ⟨before, b, builder, termination, rest, rfl, hb, ha, hok, hdraft⟩
    · rw [BlockAddr.terminator?, BlockAddr.read?_eq, hstart.read?_eq_none] at hold
      cases hold
    refine ⟨before, b, builder, termination, rest, rfl, hb, ha, hok, ?_⟩
    intro label
    constructor
    · rw [hdraft]
      exact termination.targetOperands_draft label
    intro target htarget
    obtain ⟨hfunction, hexists⟩ := hjumps.stays hb a ha target htarget
    refine ⟨hfunction, ?_⟩
    intro later
    obtain ⟨block, hblock⟩ := Option.isSome_iff_exists.mp hexists
    have hlabel : label target = block.label := by
      simp only [label, Bench.labelAt, hblock]
      rfl
    rw [hlabel, ← hfunction, List.append_assoc, after_append]
    exact (hstart.wellFormed.after before).label_resolves hblock _
  · intro a f hf later
    have hwell := hstart.wellFormed.after calls
    rw [after_append]
    obtain ⟨m, f', hm, hf', hgrows, hname⟩ := hwell.name_resolves hf later
    refine ⟨m, f', hm, hf', hgrows.name_eq, hname, ?_⟩
    intro j b hb
    obtain ⟨b', hb', hblock⟩ := hgrows.block j b hb
    have hread' : a.read? ((start.after calls).after later).modules = some f' :=
      Option.bind_eq_some_iff.mpr ⟨m, hm, hf'⟩
    have hlabel := (((hwell.after later).code.function a f' hread').findBlock?_label hb').1
    rw [hblock.label_eq] at hlabel
    exact ⟨b', hb', hblock.label_eq, hlabel⟩

/-- A run with a branch, after which another block and another function are added. -/
def branchCalls : List (Nat × Call) :=
  [(0, .startFunction "f" Ty.void [("c", Ty.bool)]),
    (0, .createBlock ⟨0, 0⟩ "entry"),
    (1, .createBlock ⟨0, 0⟩ "exit"),
    (0, .positionAt .finish ⟨0, 0, 0⟩),
    (0, .terminate (.branch (.temp 0 Ty.bool 0) ⟨0, 0, 1⟩ ⟨0, 0, 0⟩)),
    (1, .createBlock ⟨0, 0⟩ "more"),
    (1, .startFunction "g" Ty.void [])]

/-- Its branch names two labels, each of which finds one block from then on. -/
theorem branchCalls_keep_resolving :
    pair.JumpsStay branchCalls ∧
      ∃ t, BlockAddr.terminator? ⟨0, 0, 0⟩ (pair.after branchCalls).modules = some t ∧
        t.targetOperands = [.block "exit", .block "entry"] ∧
        ∀ v ∈ t.targetOperands, ∃ label j, v = .block label ∧
          ∀ later, ∃ f block,
            FunctionAddr.read? ⟨0, 0⟩ (pair.after (branchCalls ++ later)).modules = some f ∧
            f.findBlock? label = some j ∧ f.blocks.filter (·.label == label) = [block] := by
  have hjumps : pair.JumpsStay branchCalls := by
    decide +kernel
  have hread : (BlockAddr.terminator? ⟨0, 0, 0⟩ (pair.after branchCalls).modules).map
      (fun t => t.targetOperands) = some [.block "exit", .block "entry"] :=
    rfl
  obtain ⟨t, ht, hoperands⟩ := Option.map_eq_some_iff.mp hread
  refine ⟨hjumps, t, ht, hoperands, ?_⟩
  obtain ⟨_, _, _, termination, _, _, _, _, _, hlabels, htargets⟩ :=
    (names_keep_resolving pair_fresh branchCalls).1 hjumps _ t ht
  rw [hlabels]
  intro v hv
  obtain ⟨target, htarget, rfl⟩ := List.mem_map.mp hv
  refine ⟨_, target.blockAt, rfl, ?_⟩
  intro later
  obtain ⟨f, block, hf, _, hfind, hfilter⟩ := (htargets target htarget).2 later
  exact ⟨f, block, hf, hfind, hfilter⟩

end World

end Targets

end ThreeAddress
