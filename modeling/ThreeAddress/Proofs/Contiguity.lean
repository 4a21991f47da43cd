import ThreeAddress.Proofs.Handles
import ThreeAddress.Proofs.Insertion

/-!
# Runs of emissions

A builder that has placed its cursor in a block stands between two parts of the block's sequence.
Whatever it then emits lands between these parts, in call order, as long as it does not move and no
other builder puts anything into the block: calls that fail, and calls that place nothing, change
neither the parts nor the place of the cursor (`World.Between.after`).

Where the parts are divided is told by the positioning call: at an end of the block, behind an
instruction, or one position in front of the one before it (`World.emissions_are_contiguous`).
-/

namespace ThreeAddress

section Definitions

/-- The call moves the cursor if it succeeds. -/
def Call.moves : Call → Bool
  | .startFunction .. | .position .. | .positionAt .. => true
  | .createBlock .. | .param .. | .setLoc _ | .constant .. | .emit _ | .terminate _ => false

/-- The calls that place a cursor in a block, each with the number of instructions before it. -/
inductive Positioning (a : BlockAddr) (instrs : List Instr) : Call → Nat → Prop
  | start :
      Positioning a instrs (.positionAt .start a) 0
  | finish :
      Positioning a instrs (.positionAt .finish a) instrs.length
  | after
      {j : Nat} {i : Instr}
      (hi : instrs[j]? = some i) :
      Positioning a instrs (.position .after i.handle) (j + 1)
  | before
      {j : Nat} {i : Instr}
      (hi : instrs[j]? = some i) :
      Positioning a instrs (.position .before i.handle) (j - 1)

/-- An emission of a builder that succeeded, with its reply. -/
def emissionOf? (b : Nat) : (Nat × Call) × Except BuildError Reply → Option (Emission Value × Reply)
  | ((b', .emit e), .ok reply) => if b' = b then some (e, reply) else none
  | _ => none

/-- The instruction that an emission put into a block. -/
structure Instr.EmittedBy (emission : Emission Value × Reply) (i : Instr) : Prop where
  draft_eq : emission.1.draft = .ok i.toDraft
  drafted : emission.1.Drafted i.toDraft
  reply_eq : emission.2 = .value i.handle

namespace World

/-- The successful emissions of a builder in a run, in call order. -/
def emissionsBy (w : World) (b : Nat) (calls : List (Nat × Call)) : List (Emission Value × Reply) :=
  (calls.zip (w.run calls).1).filterMap (emissionOf? b)

/--
In a run no successful call moves a builder, and no successful call of another one puts anything
into a block.
-/
def Undisturbed (w : World) (b : Nat) (a : BlockAddr) : List (Nat × Call) → Prop
  | [] => True
  | (b', c) :: rest =>
      ((w.call b' c).1.isOk = true →
        if b' = b then c.moves = false
        else c.places = true → (w.builders[b']?.bind fun builder => builder.cursor.block) ≠ some a) ∧
      (w.call b' c).2.Undisturbed b a rest

instance decidableUndisturbed (w : World) (b : Nat) (a : BlockAddr) :
    DecidablePred (w.Undisturbed b a)
  | [] => inferInstanceAs (Decidable True)
  | (b', c) :: rest =>
      have := (w.call b' c).2.decidableUndisturbed b a rest
      inferInstanceAs (Decidable (((w.call b' c).1.isOk = true →
        if b' = b then c.moves = false
        else c.places = true →
          (w.builders[b']?.bind fun builder => builder.cursor.block) ≠ some a) ∧
        (w.call b' c).2.Undisturbed b a rest))

/-- A builder stands in a block between two parts of its sequence. -/
def Between (w : World) (b : Nat) (a : BlockAddr) (front back : List Instr) : Prop :=
  ∃ builder block, w.builders[b]? = some builder ∧ builder.cursor.block = some a ∧
    a.read? w.modules = some block ∧ block.instrs = front ++ back ∧
    builder.cursor.anchor = front.length

/-- The world in which a builder has gone to an anchor in a block. -/
def goTo (w : World) (b : Nat) (builder : Builder) (a : BlockAddr) (anchor : Nat) : World :=
  w.settle b ((w.benchOf builder).moveTo ⟨some a.function, some a, anchor⟩)

end World

end Definitions

section Runs

/-- A builder positions itself in front of an instruction or at the end. -/
theorem Positioning.le_length
    {a : BlockAddr} {instrs : List Instr} {c : Call} {k : Nat}
    (hc : Positioning a instrs c k) :
    k ≤ instrs.length := by
  cases hc with
  | start =>
      exact Nat.zero_le _
  | finish =>
      exact Nat.le_refl _
  | after hi | before hi =>
      have hlt := (List.getElem?_eq_some_iff.mp hi).1
      omega

/-- A call that neither moves nor places leaves the cursor where it is. -/
theorem Bench.Step.cursor_eq
    {s s' : Bench} {c : Call} {reply : Reply}
    (hstep : s.Step c reply s')
    (hmoves : c.moves = false)
    (hplaces : c.places = false) :
    s'.builder.cursor = s.builder.cursor := by
  cases hstep with
  | startFunction | position | positionAt =>
      cases hmoves
  | emit | terminate =>
      cases hplaces
  | createBlock | param | setLoc | constant =>
      rfl

theorem emissionOf?_of_ne
    {b b' : Nat}
    (hne : b' ≠ b)
    (c : Call)
    (result : Except BuildError Reply) :
    emissionOf? b ((b', c), result) = none := by
  cases c with
  | emit e =>
      cases result with
      | ok reply =>
          exact if_neg hne
      | error error =>
          rfl
  | _ =>
      rfl

namespace World

variable {w : World} {b : Nat} {a : BlockAddr} {front back : List Instr}

theorem emissionsBy_cons
    (w : World)
    (b b' : Nat)
    (c : Call)
    (rest : List (Nat × Call)) :
    w.emissionsBy b ((b', c) :: rest) =
      (emissionOf? b ((b', c), (w.call b' c).1)).toList ++ (w.call b' c).2.emissionsBy b rest := by
  simp only [emissionsBy, run, List.zip_cons_cons, List.filterMap_cons]
  cases emissionOf? b ((b', c), (w.call b' c).1) <;> rfl

/-- Another builder leaves a builder between the parts, if it puts nothing into the block. -/
theorem Between.call_other
    {b' : Nat} {c : Call}
    (hw : w.Between b a front back)
    (hne : b' ≠ b)
    (hplaces : (w.call b' c).1.isOk = true → c.places = true →
      (w.builders[b']?.bind fun builder => builder.cursor.block) ≠ some a) :
    (w.call b' c).2.Between b a front back := by
  have hcase := w.callCase b' c
  generalize w.call b' c = result at hcase hplaces ⊢
  cases hcase with
  | absent hb' =>
      exact hw
  | done hb' hstep =>
      obtain ⟨builder, block, hb, hcursor, hread, hinstrs, hanchor⟩ := hw
      obtain ⟨block', hread', htouches⟩ := hstep.touches hread
      cases htouches with
      | apart =>
          exact ⟨builder, block, (List.getElem?_set_ne hne).trans hb, hcursor, hread', hinstrs,
            hanchor⟩
      | emit ha | terminate ha =>
          refine absurd ?_ (hplaces rfl rfl)
          rw [hb']
          exact ha
  | failed hb' =>
      exact hw

/-- What a builder emits lands behind the first part, and it stands behind it. -/
theorem Between.call_self
    {c : Call}
    (hw : w.Between b a front back)
    (hmoves : (w.call b c).1.isOk = true → c.moves = false) :
    ∃ new, (w.call b c).2.Between b a (front ++ new) back ∧
      List.Forall₂ Instr.EmittedBy (emissionOf? b ((b, c), (w.call b c).1)).toList new := by
  obtain ⟨builder, block, hb, hcursor, hread, hinstrs, hanchor⟩ := id hw
  have hlt := (List.getElem?_eq_some_iff.mp hb).1
  have hcase := w.callCase b c
  generalize w.call b c = result at hcase hmoves ⊢
  cases hcase with
  | absent hb' =>
      rw [hb] at hb'
      cases hb'
  | @done _ reply s hb' hstep =>
      cases hb.symm.trans hb'
      -- The builder is put back as the call left it.
      have hsettle : (w.settle b s).builders[b]? = some s.builder :=
        List.getElem?_set_self hlt
      obtain ⟨block', hread', htouches⟩ := hstep.touches hread
      cases htouches with
      | apart helsewhere =>
          have hplaces : c.places = false := by
            by_contra h
            exact helsewhere (by simpa using h) hcursor
          have hsame := hstep.cursor_eq (hmoves rfl) hplaces
          have hnone : emissionOf? b ((b, c), .ok reply) = none := by
            cases c with
            | emit e =>
                cases hplaces
            | _ =>
                rfl
          refine ⟨[], ?_, by rw [hnone]; exact .nil⟩
          rw [List.append_nil]
          exact ⟨s.builder, block, hsettle, hsame ▸ hcursor, hread', hinstrs, hsame ▸ hanchor⟩
      | @emit e d i ha hopen hdraft hi =>
          have hsome : emissionOf? b ((b, .emit e), .ok (.value i.handle)) =
              some (e, .value i.handle) :=
            if_pos rfl
          have hdraft : e.draft = .ok i.toDraft := by
            rw [hi]
            exact hdraft
          have hemitted : i.EmittedBy (e, .value i.handle) :=
            ⟨hdraft, Emission.draft_eq_ok_iff.mp hdraft, rfl⟩
          have hposition : min builder.cursor.anchor block.size = front.length := by
            simp [hanchor, Block.size, hinstrs]
          refine ⟨[i], ⟨_, _, hsettle, ?_, hread', ?_, ?_⟩, by rw [hsome]; exact .cons hemitted .nil⟩
          · rw [Bench.insert_builder]
            exact hcursor
          · rw [benchOf_builder, hposition]
            simp [Block.insert, hinstrs]
          · rw [Bench.insert_builder]
            simpa [Bench.insertPosition] using hposition
      | @terminate t i ha hopen hi =>
          refine ⟨[], ?_, .nil⟩
          rw [List.append_nil]
          rw [Bench.close_builder] at hsettle
          exact ⟨builder, block.close i, hsettle, hcursor, hread', hinstrs, hanchor⟩
  | failed hb' =>
      refine ⟨[], ?_, ?_⟩
      · rw [List.append_nil]
        exact hw
      · cases c <;> exact .nil

/-- In an undisturbed run, what a builder emits lands between the parts, in call order. -/
theorem Between.after
    {calls : List (Nat × Call)}
    (hw : w.Between b a front back)
    (hcalls : w.Undisturbed b a calls) :
    ∃ new, (w.after calls).Between b a (front ++ new) back ∧
      List.Forall₂ Instr.EmittedBy (w.emissionsBy b calls) new := by
  induction calls generalizing w front with
  | nil =>
      exact ⟨[], by simpa using hw, .nil⟩
  | cons first rest ih =>
      obtain ⟨b', c⟩ := first
      obtain ⟨hcall, hrest⟩ := hcalls
      rw [emissionsBy_cons]
      by_cases hb : b' = b
      · subst hb
        rw [if_pos rfl] at hcall
        obtain ⟨new, hnew, hemitted⟩ := hw.call_self hcall
        obtain ⟨new', hnew', hemitted'⟩ := ih hnew hrest
        refine ⟨new ++ new', ?_, List.rel_append hemitted hemitted'⟩
        rw [← List.append_assoc]
        exact hnew'
      · rw [if_neg hb] at hcall
        obtain ⟨new, hnew, hemitted⟩ := ih (hw.call_other hb hcall) hrest
        refine ⟨new, hnew, ?_⟩
        rw [emissionOf?_of_ne hb]
        exact hemitted

end World

end Runs

section Positions

namespace World

variable {w : World} {b : Nat} {builder : Builder} {a : BlockAddr} {block : Block}

/-- A builder goes to either end of a block of its module. -/
theorem WellFormed.call_positionAt
    (hw : w.WellFormed)
    (hb : w.builders[b]? = some builder)
    (hhome : builder.home = a.moduleAt)
    (hread : a.read? w.modules = some block)
    (edge : Edge) :
    w.call b (.positionAt edge a) =
      (.ok .nothing, w.goTo b builder a (edge.anchor block.size)) := by
  obtain ⟨f, hf, hblock⟩ := Option.bind_eq_some_iff.mp (a.read?_eq w.modules ▸ hread)
  have hparent := (hw.code.function _ f hf).parent_eq block (List.mem_of_getElem? hblock)
  have hentry : (w.benchOf builder).entry edge a = .ok block :=
    Bench.entry_eq_ok_iff.mpr ⟨hread, hhome.symm, hparent.symm⟩
  refine call_of_plan hb ?_
  rw [Call.plan, hentry]
  rfl

/--
A builder of the module goes next to an instruction by its handle, if it is in the function of the
instruction; in another function the call does not succeed.
-/
theorem Reachable.call_position_handle
    {j : Nat} {i : Instr} {side : Side}
    (hw : w.Reachable)
    (hb : w.builders[b]? = some builder)
    (hhome : builder.home = a.moduleAt)
    (hread : a.read? w.modules = some block)
    (hi : block.instrs[j]? = some i)
    (hok : (w.call b (.position side i.handle)).1.isOk = true ∨
      builder.cursor.function = some a.function) :
    w.call b (.position side i.handle) = (.ok .nothing, w.goTo b builder a (side.anchor j)) := by
  obtain ⟨f, hf, hblock⟩ := Option.bind_eq_some_iff.mp (a.read?_eq w.modules ▸ hread)
  have hfun := hw.wellFormed.code.function _ f hf
  have hparent : i.parent = a.functionAt :=
    hfun.contents_parent_eq block (List.mem_of_getElem? hblock) i
      (List.mem_of_getElem? (Block.getElem?_contents hi))
  have hfunction : builder.cursor.function = some a.function := by
    by_contra hne
    have hvalue : ∀ id type owner, i.handle = .temp id type owner →
        owner = a.functionAt ∧
          (builder.cursor.function = some a.function → f.locate? id = none) := by
      rintro id type owner ⟨⟩
      exact ⟨hparent, fun h => absurd h hne⟩
    obtain ⟨error, hcall, _⟩ :=
      hw.wellFormed.call_position_not_found hf hb hhome hvalue side
    rw [hcall] at hok
    exact hok.elim nofun hne
  have hlocate := Bench.locate_handle (s := w.benchOf builder) hfunction hf
    (hw.numbered _ f hf) (hfun.index_eq.trans hparent.symm) hblock hi side
  rw [call_position_of_ok hb hlocate, goTo, ← hfunction]

/--
A positioning call that succeeds moves the builder to its anchor; it succeeds if the builder is in
the function of the block.
-/
theorem Reachable.call_positioning
    {c : Call} {k : Nat}
    (hw : w.Reachable)
    (hb : w.builders[b]? = some builder)
    (hhome : builder.home = a.moduleAt)
    (hread : a.read? w.modules = some block)
    (hc : Positioning a block.instrs c k)
    (hok : (w.call b c).1.isOk = true ∨ builder.cursor.function = some a.function) :
    w.call b c = (.ok .nothing, w.goTo b builder a k) := by
  cases hc with
  | start =>
      exact hw.wellFormed.call_positionAt hb hhome hread .start
  | finish =>
      exact hw.wellFormed.call_positionAt hb hhome hread .finish
  | after hi =>
      exact hw.call_position_handle hb hhome hread hi hok
  | before hi =>
      exact hw.call_position_handle hb hhome hread hi hok

/-- A builder that has gone to an anchor stands between what is before it and what is behind. -/
theorem between_goTo
    {k : Nat}
    (hb : w.builders[b]? = some builder)
    (hread : a.read? w.modules = some block)
    (hk : k ≤ block.size) :
    (w.goTo b builder a k).Between b a (block.instrs.take k) (block.instrs.drop k) := by
  refine ⟨_, block, List.getElem?_set_self (List.getElem?_eq_some_iff.mp hb).1, rfl, hread, ?_, ?_⟩
  · rw [List.take_append_drop]
  · rw [List.length_take_of_le hk]
    rfl

/--
A run of emissions after a positioning call is one piece of the block, in call order.

In a reachable world a builder of the module of a block places its cursor there: at an end, behind
an instruction, or before one.  A run of calls follows in which it does not move again and nobody
else puts anything into the block; in between there may be failures, and calls that place nothing.
What it emitted then stands, in call order, at the anchor of the positioning call, between the
instructions before the anchor and those behind it; so what was emitted before an instruction is in
front of it.

A builder in the function of the block can position itself in all these ways.  It gets to the same
place behind the last instruction and at the end, before one of the first two instructions and at
the start, and before an instruction and behind the one two positions earlier.
-/
theorem emissions_are_contiguous
    (hw : w.Reachable)
    (hb : w.builders[b]? = some builder)
    (hhome : builder.home = a.moduleAt)
    (hread : a.read? w.modules = some block) :
    (∀ c k reply calls, Positioning a block.instrs c k → (w.call b c).1 = .ok reply →
      (w.call b c).2.Undisturbed b a calls →
      let w' := (w.call b c).2
      ∃ new builder' block',
        (w'.after calls).builders[b]? = some builder' ∧
        a.read? (w'.after calls).modules = some block' ∧
        List.Forall₂ Instr.EmittedBy (w'.emissionsBy b calls) new ∧
        block'.instrs = block.instrs.take k ++ new ++ block.instrs.drop k ∧
        (∀ j, k ≤ j → block'.instrs[j + new.length]? = block.instrs[j]?) ∧
        builder'.cursor.block = some a ∧ builder'.cursor.anchor = k + new.length) ∧
    (builder.cursor.function = some a.function →
      (∀ c k, Positioning a block.instrs c k → (w.call b c).1 = .ok .nothing) ∧
      (∀ i, block.instrs.getLast? = some i →
        w.call b (.position .after i.handle) = w.call b (.positionAt .finish a)) ∧
      (∀ j i, block.instrs[j]? = some i → j ≤ 1 →
        w.call b (.position .before i.handle) = w.call b (.positionAt .start a)) ∧
      ∀ j i i', block.instrs[j]? = some i → block.instrs[j + 2]? = some i' →
        w.call b (.position .before i'.handle) = w.call b (.position .after i.handle)) := by
  constructor
  · intro c k reply calls hc hok hcalls w'
    have hcall := hw.call_positioning hb hhome hread hc (Or.inl (by rw [hok]; rfl))
    have hk := hc.le_length
    have hbetween : w'.Between b a (block.instrs.take k) (block.instrs.drop k) := by
      show (w.call b c).2.Between b a _ _
      rw [hcall]
      exact between_goTo hb hread hk
    obtain ⟨new, ⟨builder', block', hb', hcursor, hread', hinstrs, hanchor⟩, hemitted⟩ :=
      hbetween.after hcalls
    refine ⟨new, builder', block', hb', hread', hemitted, hinstrs, ?_, hcursor, ?_⟩
    · intro j hj
      rw [hinstrs, List.getElem?_append_right (by simp; omega), List.getElem?_drop]
      congr 1
      simp
      omega
    · simpa [List.length_take_of_le hk] using hanchor
  · intro hfunction
    have hgoes : ∀ {c k}, Positioning a block.instrs c k →
        w.call b c = (.ok .nothing, w.goTo b builder a k) :=
      fun hc => hw.call_positioning hb hhome hread hc (Or.inr hfunction)
    refine ⟨fun c k hc => congrArg Prod.fst (hgoes hc), ?_, ?_, ?_⟩
    · intro i hi
      rw [List.getLast?_eq_getElem?] at hi
      have hlast : block.instrs.length - 1 + 1 = block.instrs.length := by
        have hlt := (List.getElem?_eq_some_iff.mp hi).1
        omega
      rw [hgoes (.after hi), hgoes .finish, hlast]
    · intro j i hi hj
      rw [hgoes (.before hi), hgoes .start, Nat.sub_eq_zero_of_le hj]
    · intro j i i' hi hi'
      exact (hgoes (.before hi')).trans (hgoes (.after hi)).symm

/-- A block with three instructions and an empty one; the first builder has written the three. -/
def threeLoads : List (Nat × Call) :=
  let x : Value := .temp 0 (Ty.int 32).pointer 0
  [(0, .startFunction "f" Ty.void [("x", (Ty.int 32).pointer)]),
    (0, .createBlock ⟨0, 0⟩ "entry"),
    (0, .createBlock ⟨0, 0⟩ "exit"),
    (0, .positionAt .finish ⟨0, 0, 0⟩),
    (0, .emit (.load x "i")),
    (0, .emit (.load x "j")),
    (0, .emit (.load x "k")),
    (1, .positionAt .finish ⟨0, 0, 1⟩)]

/--
Before the third load, the first builder emits two instructions: a failure, a change of location,
a new block and an emission of the second builder into the other block do not part them.
-/
theorem threeLoads_contiguous :
    let x : Value := .temp 0 (Ty.int 32).pointer 0
    let outcome := (pair.after threeLoads).call 0 (.position .before (.temp 3 (Ty.int 32) 0))
    let calls : List (Nat × Call) :=
      [(0, .emit (.load x "l")),
        (0, .emit (.binary .add x (.bool true) "")),
        (0, .setLoc { line := 3 }),
        (1, .emit (.load x "m")),
        (0, .createBlock ⟨0, 0⟩ "more"),
        (0, .emit (.store x x))]
    outcome.1 = .ok .nothing ∧
      ∃ block, BlockAddr.read? ⟨0, 0, 0⟩ (outcome.2.after calls).modules = some block ∧
        block.instrs.map (·.name) = ["i", "l", "", "j", "k"] := by
  intro x outcome calls
  have hread : (BlockAddr.read? ⟨0, 0, 0⟩ (pair.after threeLoads).modules).map
      (fun b => b.instrs.map fun i => (i.handle, i.name)) =
        some [(.temp 1 (Ty.int 32) 0, "i"), (.temp 2 (Ty.int 32) 0, "j"),
          (.temp 3 (Ty.int 32) 0, "k")] :=
    rfl
  obtain ⟨block, hread, hinstrs⟩ := Option.map_eq_some_iff.mp hread
  have hnames : block.instrs.map (·.name) = ["i", "j", "k"] := by
    simpa [Function.comp_def] using congrArg (List.map Prod.snd) hinstrs
  obtain ⟨i, hi, hhandle⟩ : ∃ i, block.instrs[2]? = some i ∧ i.handle = .temp 3 (Ty.int 32) 0 := by
    have hthird := congrArg (·[2]?) hinstrs
    simp only [List.getElem?_map] at hthird
    obtain ⟨i, hi, hvalues⟩ := Option.map_eq_some_iff.mp hthird
    exact ⟨i, hi, congrArg Prod.fst hvalues⟩
  have hb : (pair.after threeLoads).builders[0]? =
      some { cursor := ⟨some ⟨0, 0⟩, some ⟨0, 0, 0⟩, 3⟩ } := by
    decide +kernel
  have hreachable : (pair.after threeLoads).Reachable := ⟨pair, threeLoads, pair_fresh, rfl⟩
  obtain ⟨hruns, hplaces⟩ := emissions_are_contiguous hreachable hb rfl hread
  have hc : Positioning ⟨0, 0, 0⟩ block.instrs (.position .before (.temp 3 (Ty.int 32) 0)) 1 :=
    hhandle ▸ .before hi
  have hok : outcome.1 = .ok .nothing := (hplaces rfl).1 _ _ hc
  have hundisturbed : outcome.2.Undisturbed 0 ⟨0, 0, 0⟩ calls := by
    decide +kernel
  obtain ⟨new, _, block', _, hread', hemitted, hinstrs', _⟩ :=
    hruns _ _ _ calls hc hok hundisturbed
  have hemissions : outcome.2.emissionsBy 0 calls =
      [(.load x "l", .value (.temp 4 (Ty.int 32) 0)), (.store x x, .value (.temp 6 Ty.void 0))] :=
    rfl
  -- The two instructions have the names that were drafted.
  have hnew : new.map (·.name) = ["l", ""] := by
    rw [hemissions] at hemitted
    obtain _ | ⟨⟨hload, _, _⟩, _ | ⟨⟨hstore, _, _⟩, ⟨⟩⟩⟩ := hemitted
    have hl := congrArg Draft.name (Except.ok.inj hload)
    have hs := congrArg Draft.name (Except.ok.inj hstore)
    exact congrArg₂ (fun l s => [l, s]) hl.symm hs.symm
  refine ⟨hok, block', hread', ?_⟩
  rw [hinstrs', List.map_append, List.map_append, List.map_take, List.map_drop, hnames, hnew]
  rfl

end World

end Positions

end ThreeAddress
