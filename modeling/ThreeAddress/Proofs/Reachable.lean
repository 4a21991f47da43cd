import ThreeAddress.Proofs.Steps

/-!
# Reachable worlds

Every reachable world is well-formed (`Reachable.wellFormed`), and its code comes from empty
modules by additions.  So what additions keep holds of the code of every run and its history
(`WellFormed.history_induction`), and what they keep of single functions holds of every function
of a reachable world (`Reachable.forall_function`).
-/

namespace ThreeAddress

namespace World

variable {w : World}

section Invariants

/-- No function is read in a fresh world. -/
theorem Fresh.read?_eq_none
    (hw : w.Fresh)
    (a : FunctionAddr) :
    a.read? w.modules = none := by
  simp only [FunctionAddr.read?, Option.bind_eq_bind, Option.bind_eq_none_iff]
  intro m hm
  rw [hw.modules_empty m (List.mem_of_getElem? hm)]
  rfl

theorem Fresh.wellFormed
    (hw : w.Fresh) :
    w.WellFormed where
  code := by
    constructor
    · intro a f hf
      rw [hw.read?_eq_none] at hf
      cases hf
    · intro m hm
      rw [hw.modules_empty m hm]
      exact List.nodup_nil
  builder := by
    intro builder hbuilder
    refine ⟨hw.builders_home builder hbuilder, ?_, ?_, ?_⟩ <;>
      simp [hw.builders_nowhere builder hbuilder]

/-- A call in a well-formed world adds to the code what it adds to the history. -/
theorem WellFormed.addition
    (hw : w.WellFormed)
    (b : Nat)
    (c : Call) :
    Addition w.modules (w.event? b c) (w.call b c).2.modules := by
  have hcase := w.callCase b c
  generalize hcall : w.call b c = result at hcase
  cases hcase with
  | absent hb =>
      rw [event?_absent hb]
      exact .nothing
  | done hb hstep =>
      rw [event?_of_ok hb (congrArg Prod.fst hcall)]
      exact hstep.addition hw.code (hw.builder _ (List.mem_of_getElem? hb))
  | failed hb =>
      rw [event?_of_error (congrArg Prod.fst hcall)]
      exact .nothing

/-- A call keeps a world well-formed. -/
theorem WellFormed.call
    (hw : w.WellFormed)
    (b : Nat)
    (c : Call) :
    (w.call b c).2.WellFormed := by
  have hadd := hw.addition b c
  have hcase := w.callCase b c
  generalize w.call b c = result at hadd hcase
  cases hcase with
  | absent hb =>
      exact hw
  | done hb hstep =>
      refine ⟨hadd.wellFormedCode hw.code, ?_⟩
      intro builder hbuilder
      rcases List.mem_or_eq_of_mem_set hbuilder with hmem | rfl
      · exact (hw.builder builder hmem).mono hadd.grows
      · exact hstep.wellPlaced hw.code (hw.builder _ (List.mem_of_getElem? hb))
  | failed hb =>
      exact hw

theorem WellFormed.after
    (hw : w.WellFormed)
    (calls : List (Nat × Call)) :
    (w.after calls).WellFormed :=
  after_induction (fun _ b c hw => hw.call b c) hw calls

theorem Reachable.wellFormed
    (hw : w.Reachable) :
    w.WellFormed := by
  obtain ⟨start, calls, hstart, rfl⟩ := hw
  exact hstart.wellFormed.after calls

/-- Code grows along every run. -/
theorem WellFormed.grows_after
    (hw : w.WellFormed)
    (calls : List (Nat × Call)) :
    Grows w.modules (w.after calls).modules := by
  induction calls generalizing w with
  | nil =>
      exact .refl _
  | cons first rest ih =>
      obtain ⟨b, c⟩ := first
      exact (hw.addition b c).grows.trans (ih (hw.call b c))

/-- What additions keep of the code and the history, runs keep. -/
theorem WellFormed.history_induction
    {P : List Module → List Event → Prop}
    (hadd : ∀ {modules h e modules'},
      P modules h → Addition modules e modules' → P modules' (h ++ e.toList))
    (hw : w.WellFormed)
    {h : List Event}
    (hP : P w.modules h)
    (calls : List (Nat × Call)) :
    P (w.after calls).modules (h ++ w.history calls) := by
  induction calls generalizing w h with
  | nil =>
      rw [history, List.append_nil]
      exact hP
  | cons first rest ih =>
      obtain ⟨b, c⟩ := first
      rw [history, ← List.append_assoc]
      exact ih (hw.call b c) (hadd hP (hw.addition b c))

/--
What holds of declared functions and is kept when a block, an instruction or a terminator is added
holds of every function of a reachable world.
-/
theorem Reachable.forall_function
    {P : Nat → Function → Prop}
    (hdeclare : ∀ {name position result params},
      name ≠ "" → (∀ p ∈ params, p.2.isVoid = false) →
      P position (.declare name position result params))
    (hblock : ∀ {position f label},
      P position f → label ≠ "" → (∀ b ∈ f.blocks, b.label ≠ label) →
      P position (f.addBlock label))
    (hinstr : ∀ {position f block b at_ i} {e : Emission Value},
      P position f → f.blocks[block]? = some b → b.terminator = none →
      e.draft = .ok i.toDraft → i.id = f.nextId → i.parent = position →
      P position (f.place block i fun b => b.insert at_ i))
    (hclose : ∀ {position f block b i} {t : Termination Value BlockAddr} {label},
      P position f → f.blocks[block]? = some b → b.terminator = none →
      i.toDraft = t.draft label → i.id = f.nextId → i.parent = position →
      P position (f.place block i fun b => b.close i))
    (hw : w.Reachable) :
    ∀ a f, FunctionAddr.read? a w.modules = some f → P a.functionAt f := by
  obtain ⟨start, calls, hstart, rfl⟩ := hw
  have hnone : ∀ a f, FunctionAddr.read? a start.modules = some f → P a.functionAt f := by
    intro a f hread
    rw [hstart.read?_eq_none] at hread
    cases hread
  exact hstart.wellFormed.history_induction
    (P := fun modules _ => ∀ a f, FunctionAddr.read? a modules = some f → P a.functionAt f)
    (fun hP hadd => hadd.forall_function hdeclare hblock hinstr hclose hP)
    (h := []) hnone calls

/--
What holds of everything that emissions draft holds of the instructions of a reachable world, and
what holds of everything that terminations draft holds of the instructions that end blocks.
-/
theorem Reachable.forall_instr
    {P Q : Instr → Prop}
    (hinstr : ∀ {i} {e : Emission Value}, e.draft = .ok i.toDraft → P i)
    (hclose : ∀ {i} {t : Termination Value BlockAddr} {label}, i.toDraft = t.draft label → Q i)
    (hw : w.Reachable) :
    ∀ a f, FunctionAddr.read? a w.modules = some f →
      ∀ b ∈ f.blocks, (∀ i ∈ b.instrs, P i) ∧ ∀ t, b.terminator = some t → Q t := by
  refine hw.forall_function
    (P := fun _ f => ∀ b ∈ f.blocks, (∀ i ∈ b.instrs, P i) ∧ ∀ t, b.terminator = some t → Q t)
    ?_ ?_ ?_ ?_
  · intro name position result params _ _ b hb
    cases hb
  · intro position f label hf _ _ b hb
    rcases List.mem_append.mp hb with hb | hb
    · exact hf b hb
    · cases List.mem_singleton.mp hb
      simp [Function.newBlock]
  · intro position f block b at_ i e hf hb hopen hdraft hid hparent b' hb'
    rcases Function.mem_blocks_place hb' with hb' | ⟨b'', hb'', rfl⟩
    · exact hf b' hb'
    · obtain ⟨hinstrs, hterminator⟩ := hf b'' (List.mem_of_getElem? hb'')
      refine ⟨?_, hterminator⟩
      intro j hj
      rcases List.mem_cons.mp ((b''.instrs_insert_perm at_ i).mem_iff.mp hj) with rfl | hj
      · exact hinstr hdraft
      · exact hinstrs j hj
  · intro position f block b i t label hf hb hopen hdraft hid hparent b' hb'
    rcases Function.mem_blocks_place hb' with hb' | ⟨b'', hb'', rfl⟩
    · exact hf b' hb'
    · obtain ⟨hinstrs, _⟩ := hf b'' (List.mem_of_getElem? hb'')
      refine ⟨hinstrs, ?_⟩
      rintro _ ⟨⟩
      exact hclose hdraft

end Invariants

section Positions

/--
Names, positions and cursors in a reachable world.

Functions of a module have names of their own and the index of their position; blocks of a
function have labels of their own; blocks, instructions and terminators have their function's
position as parent, and no parameter is void.  A builder without a current block has anchor zero.
The current block of a builder is in its current function, which is at home, and the anchor is
in the block.  So the function that numbers an instruction for the block, and the one that is
looked up for its trace record, exist and hold the block.
-/
theorem reachable_names_positions_cursors
    (hw : w.Reachable) :
    (∀ m ∈ w.modules,
      (m.functions.map Function.name).Nodup ∧
      ∀ (position : Nat) (f : Function), m.functions[position]? = some f →
        f.name ≠ "" ∧ f.index = position ∧
        (∀ p ∈ f.params, p.type.isVoid = false) ∧
        (f.blocks.map Block.label).Nodup ∧
        ∀ b ∈ f.blocks,
          b.label ≠ "" ∧ b.parent = f.index ∧
          ∀ i ∈ b.contents, i.parent = f.index) ∧
    ∀ builder ∈ w.builders,
      (builder.cursor.block = none → builder.cursor.anchor = 0) ∧
      (∀ a, builder.cursor.function = some a →
        a.moduleAt = builder.home ∧ ∃ f, a.read? w.modules = some f) ∧
      ∀ a, builder.cursor.block = some a →
        ∃ f b, builder.cursor.function = some a.function ∧
          a.function = ⟨builder.home, b.parent⟩ ∧
          a.function.read? w.modules = some f ∧
          f.blocks[a.blockAt]? = some b ∧
          builder.cursor.anchor ≤ b.size ∧
          (w.benchOf builder).function? b.parent = some f ∧
          ∀ d change,
            let i := (w.benchOf builder).stamp b d
            ((w.benchOf builder).commit ⟨a, builder.cursor.anchor, b⟩ i change).function?
                i.parent =
              some (f.place a.blockAt i change) := by
  have hwell := hw.wellFormed
  constructor
  · intro m hm
    refine ⟨hwell.code.names_nodup m hm, ?_⟩
    intro position f hf
    obtain ⟨moduleAt, hmodule⟩ := List.mem_iff_getElem?.mp hm
    have hread : FunctionAddr.read? ⟨moduleAt, position⟩ w.modules = some f :=
      Option.bind_eq_some_iff.mpr ⟨m, hmodule, hf⟩
    have hfun := hwell.code.function _ f hread
    refine ⟨hfun.name_ne, hfun.index_eq, hfun.params_valued, hfun.labels_nodup, ?_⟩
    intro b hb
    rw [hfun.index_eq]
    exact ⟨hfun.labels_ne b hb, hfun.parent_eq b hb, hfun.contents_parent_eq b hb⟩
  · intro builder hbuilder
    have hplaced := hwell.builder builder hbuilder
    refine ⟨hplaced.anchor_eq_zero, hplaced.function, ?_⟩
    intro a ha
    obtain ⟨hfunction, b, hread, _⟩ := hplaced.block a ha
    obtain ⟨haddress, hanchor, f, hhome, hf, hblock⟩ :=
      Bench.site_wellPlaced hwell.code hplaced (site?_benchOf ha hread)
    refine ⟨f, b, hfunction, haddress, hf, hblock, hanchor, hhome, ?_⟩
    intro d change i
    have haddress' : a.function = ⟨builder.home, i.parent⟩ := haddress
    rw [Bench.function?_eq, Bench.commit_modules haddress' change]
    show FunctionAddr.read? ⟨builder.home, i.parent⟩ _ = _
    rw [← haddress', FunctionAddr.read?_modify, if_pos rfl]
    exact congrArg (Option.map _) hf

/-- The two builders of the example stand in one block, each at its own anchor. -/
theorem pairCalls_names_positions_cursors :
    (pair.after pairCalls).builders.map Builder.cursor =
        [⟨some ⟨0, 0⟩, some ⟨0, 0, 0⟩, 1⟩, ⟨some ⟨0, 0⟩, some ⟨0, 0, 0⟩, 1⟩] ∧
      ∀ builder ∈ (pair.after pairCalls).builders, ∀ a, builder.cursor.block = some a →
        ∃ b : Block, builder.cursor.function = some a.function ∧
          a.function = ⟨builder.home, b.parent⟩ ∧ builder.cursor.anchor ≤ b.size := by
  refine ⟨by decide +kernel, ?_⟩
  intro builder hbuilder a ha
  have hreachable : (pair.after pairCalls).Reachable := ⟨pair, pairCalls, pair_fresh, rfl⟩
  obtain ⟨f, b, hfunction, haddress, _, _, hanchor, _⟩ :=
    ((reachable_names_positions_cursors hreachable).2 builder hbuilder).2.2 a ha
  exact ⟨b, hfunction, haddress, hanchor⟩

end Positions

end World

end ThreeAddress
