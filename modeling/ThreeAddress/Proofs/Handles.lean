import Mathlib.Data.List.Nodup
import ThreeAddress.Proofs.Placements

/-!
# Handles of instructions

What an emission returns names the instruction by its number and by the position of its function.
The number is found by a search through the blocks of the current function; since numbers are
given out once in a function, the search finds the one instruction that has the number, wherever
later insertions have moved it.

So a handle stays good in every later world.  In another function of the module it names nothing,
although that function may have an instruction with the same number, and neither does any other
value: parameters and instructions that end a block have numbers that the search does not find.
-/

namespace ThreeAddress

section Searching

variable {f : Function}

/-- The number of an instruction and its index in a block determine each other and the block. -/
theorem Function.Numbered.position_unique
    {j j' k k' : Nat} {b b' : Block} {i i' : Instr}
    (hf : f.Numbered)
    (hb : f.blocks[j]? = some b)
    (hi : b.contents[k]? = some i)
    (hb' : f.blocks[j']? = some b')
    (hi' : b'.contents[k']? = some i')
    (hid : i.id = i'.id) :
    j = j' ∧ k = k' := by
  have hnodup : (f.blocks.flatMap fun b => b.contents.map (·.id)).Nodup :=
    (List.nodup_append.mp hf.ids_nodup).2.1
  obtain ⟨hinside, hacross⟩ := List.nodup_flatMap.mp hnodup
  obtain ⟨hj, rfl⟩ := List.getElem?_eq_some_iff.mp hb
  obtain ⟨hj', rfl⟩ := List.getElem?_eq_some_iff.mp hb'
  have hblock : j = j' := by
    by_contra hne
    have hdisjoint := List.pairwise_iff_getElem.mp hacross
    have hmem := List.mem_map_of_mem (f := (·.id)) (List.mem_of_getElem? hi)
    have hmem' := List.mem_map_of_mem (f := (·.id)) (List.mem_of_getElem? hi')
    rw [hid] at hmem
    rcases Nat.lt_or_gt_of_ne hne with hlt | hlt
    · exact hdisjoint j j' hj hj' hlt hmem hmem'
    · exact hdisjoint j' j hj' hj hlt hmem' hmem
  subst hblock
  refine ⟨rfl, ?_⟩
  have hlt : k < (f.blocks[j].contents.map (·.id)).length := by
    rw [List.length_map]
    exact (List.getElem?_eq_some_iff.mp hi).1
  refine (List.getElem?_inj hlt (hinside _ (List.getElem_mem hj))).mp ?_
  simp [hi, hi', hid]

/-- A search fails if no instruction has the number. -/
theorem Function.locateIn?_eq_none_iff
    {id : Nat} {blocks : List Block} :
    locateIn? id blocks = none ↔ ∀ b ∈ blocks, ∀ i ∈ b.instrs, i.id ≠ id := by
  induction blocks with
  | nil =>
      simp [locateIn?]
  | cons b rest ih =>
      simp only [locateIn?, List.forall_mem_cons]
      cases hindex : b.indexOf? id with
      | none =>
          have hfirst : ∀ i ∈ b.instrs, i.id ≠ id := by
            simpa using List.findIdx?_eq_none_iff.mp hindex
          rw [Option.map_eq_none_iff, ih]
          exact ⟨fun hrest => ⟨hfirst, hrest⟩, And.right⟩
      | some k =>
          obtain ⟨hlt, hid, _⟩ := List.findIdx?_eq_some_iff_getElem.mp hindex
          refine iff_of_false (Option.some_ne_none _) ?_
          rintro ⟨hfirst, _⟩
          exact hfirst _ (List.getElem_mem hlt) (by simpa using hid)

theorem Block.getElem?_contents
    {b : Block} {k : Nat} {i : Instr}
    (hi : b.instrs[k]? = some i) :
    b.contents[k]? = some i := by
  rw [contents, List.getElem?_append_left (List.getElem?_eq_some_iff.mp hi).1, hi]

theorem Block.getElem?_contents_length
    {b : Block} {t : Instr}
    (ht : b.terminator = some t) :
    b.contents[b.instrs.length]? = some t := by
  simp [contents, ht]

/-- The search for the number of an instruction finds the instruction. -/
theorem Function.Numbered.locate?_eq_some
    {j k : Nat} {b : Block} {i : Instr}
    (hf : f.Numbered)
    (hb : f.blocks[j]? = some b)
    (hi : b.instrs[k]? = some i) :
    f.locate? i.id = some ⟨j, k⟩ := by
  cases hlocate : f.locate? i.id with
  | none =>
      have hnone := locateIn?_eq_none_iff.mp hlocate b (List.mem_of_getElem? hb)
      exact absurd rfl (hnone i (List.mem_of_getElem? hi))
  | some p =>
      obtain ⟨b', i', hb', hi', hid⟩ := locateIn?_eq_some hlocate
      obtain ⟨hj, hk⟩ := hf.position_unique hb (Block.getElem?_contents hi) hb'
        (Block.getElem?_contents hi') hid.symm
      rw [hj, hk]

/-- The search does not find parameters. -/
theorem Function.Numbered.locate?_param
    {p : Param}
    (hf : f.Numbered)
    (hp : p ∈ f.params) :
    f.locate? p.id = none := by
  rw [locate?, locateIn?_eq_none_iff]
  intro b hb i hi hid
  have hdisjoint := (List.nodup_append.mp hf.ids_nodup).2.2
  exact hdisjoint p.id (List.mem_map_of_mem hp) i.id
    (List.mem_flatMap.mpr ⟨b, hb, List.mem_map_of_mem (List.mem_append_left _ hi)⟩) hid.symm

/-- The search does not find instructions that end a block. -/
theorem Function.Numbered.locate?_terminator
    {b : Block} {t : Instr}
    (hf : f.Numbered)
    (hb : b ∈ f.blocks)
    (ht : b.terminator = some t) :
    f.locate? t.id = none := by
  rw [locate?, locateIn?_eq_none_iff]
  intro b' hb' i hi hid
  obtain ⟨j, hj⟩ := List.mem_iff_getElem?.mp hb
  obtain ⟨j', hj'⟩ := List.mem_iff_getElem?.mp hb'
  obtain ⟨k, hk⟩ := List.mem_iff_getElem?.mp hi
  obtain ⟨rfl, hlength⟩ := hf.position_unique hj' (Block.getElem?_contents hk) hj
    (Block.getElem?_contents_length ht) hid
  rw [hj] at hj'
  cases hj'
  have hlt := (List.getElem?_eq_some_iff.mp hk).1
  omega

end Searching

/-- The values that name no instruction in the sequence of a block, here or elsewhere. -/
inductive Function.NamesNoInstr (f : Function) : Value → Prop
  | param
      {p : Param}
      (hp : p ∈ f.params)
      (type : Ty) :
      NamesNoInstr f (.temp p.id type f.index)
  | constant
      {v : Value}
      (hv : v.isConstant = true) :
      NamesNoInstr f v
  | block
      (label : String) :
      NamesNoInstr f (.block label)
  | terminator
      {b : Block} {t : Instr}
      (hb : b ∈ f.blocks)
      (ht : b.terminator = some t)
      (type : Ty) :
      NamesNoInstr f (.temp t.id type t.parent)

section Positioning

variable {s : Bench} {side : Side} {v : Value}

/-- An instruction of the current function is located by its handle. -/
theorem Bench.locate_handle
    {a : BlockAddr} {f : Function} {b : Block} {k : Nat} {i : Instr}
    (hfunction : s.builder.cursor.function = some a.function)
    (hread : a.function.read? s.modules = some f)
    (hf : f.Numbered)
    (hindex : f.index = i.parent)
    (hb : f.blocks[a.blockAt]? = some b)
    (hi : b.instrs[k]? = some i)
    (side : Side) :
    s.locate side i.handle = .ok (a, k) := by
  simp only [locate, Instr.handle, hfunction, hread, Option.bind_some, Option.map_some, hindex,
    if_pos, hf.locate?_eq_some hb hi]
  rfl

/-- Nothing is located by a value that names no instruction of the current function. -/
theorem Bench.locate_not_found
    (hv : ∀ a f, s.builder.cursor.function = some a → a.read? s.modules = some f →
      ∀ id type, v = .temp id type f.index → f.locate? id = none)
    (side : Side) :
    ∃ fault, s.locate side v = .error fault ∧ fault.kind = .notFound := by
  cases v with
  | temp id type owner =>
      simp only [locate]
      split
      · exact ⟨_, rfl, rfl⟩
      · rename_i a f hcurrent
        simp only [Option.bind_eq_some_iff, Option.map_eq_some_iff, Prod.mk.injEq] at hcurrent
        obtain ⟨a', ha, f', hf, rfl, rfl⟩ := hcurrent
        have hnone : (if owner = f'.index then f'.locate? id else none) = none := by
          split
          · rename_i howner
            exact hv a' f' ha hf id type (howner ▸ rfl)
          · rfl
        rw [hnone]
        exact ⟨_, rfl, rfl⟩
  | _ =>
      exact ⟨_, rfl, rfl⟩

namespace World

variable {w : World} {b : Nat} {builder : Builder}

/-- A builder goes to what its bench locates. -/
theorem call_position_of_ok
    {a : BlockAddr} {index : Nat}
    (hb : w.builders[b]? = some builder)
    (hlocate : (w.benchOf builder).locate side v = .ok (a, index)) :
    w.call b (.position side v) =
      (.ok .nothing, w.settle b ((w.benchOf builder).moveTo
        { builder.cursor with block := some a, anchor := side.anchor index })) := by
  rw [call_eq hb, Call.perform_eq_plan]
  simp [Call.plan, hlocate]

/-- A builder stays where it is when its bench locates nothing. -/
theorem call_position_of_error
    {fault : Fault}
    (hb : w.builders[b]? = some builder)
    (hlocate : (w.benchOf builder).locate side v = .error fault) :
    w.call b (.position side v) = (.error (fault.raisedAt builder.loc), w) := by
  rw [call_eq hb, Call.perform_eq_plan]
  simp [Call.plan, hlocate, settle_benchOf hb]

/--
A temporary with the index of a function as its owner positions a builder of the module only
if the search in that function finds its number.
-/
theorem WellFormed.call_position_not_found
    {a : FunctionAddr} {f : Function}
    (hw : w.WellFormed)
    (ha : a.read? w.modules = some f)
    (hb : w.builders[b]? = some builder)
    (hhome : builder.home = a.moduleAt)
    (hv : ∀ id type owner, v = .temp id type owner →
      owner = a.functionAt ∧ (builder.cursor.function = some a → f.locate? id = none))
    (side : Side) :
    ∃ error, w.call b (.position side v) = (.error error, w) ∧ error.kind = .notFound := by
  have hplaced := hw.builder builder (List.mem_of_getElem? hb)
  have hnone : ∀ a' f', builder.cursor.function = some a' → a'.read? w.modules = some f' →
      ∀ id type, v = .temp id type f'.index → f'.locate? id = none := by
    intro a' f' ha' hf' id type hvalue
    obtain ⟨howner, hlocate⟩ := hv id type f'.index hvalue
    -- A current function at home with the index of `f` stands where `f` stands.
    have hsame : a' = a := by
      obtain ⟨m, k⟩ := a
      obtain ⟨m', k'⟩ := a'
      have hm : m' = m := (hplaced.function _ ha').1.trans hhome
      have hk : k' = k := ((hw.code.function _ f' hf').index_eq).symm.trans howner
      rw [hm, hk]
    subst hsame
    rw [ha] at hf'
    cases hf'
    exact hlocate ha'
  obtain ⟨fault, hlocate, hkind⟩ :=
    Bench.locate_not_found (s := w.benchOf builder) hnone side
  exact ⟨_, call_position_of_error hb hlocate, hkind⟩

end World

end Positioning

section Growing

/-- What names no instruction of a function names none when the function has grown. -/
theorem Function.NamesNoInstr.mono
    {f f' : Function} {v : Value}
    (hv : f.NamesNoInstr v)
    (hgrows : f.Grows f') :
    f'.NamesNoInstr v := by
  cases hv with
  | param hp type =>
      rw [← hgrows.index_eq]
      exact .param (hgrows.params_eq ▸ hp) type
  | constant hv =>
      exact .constant hv
  | block label =>
      exact .block label
  | @terminator b t hb ht type =>
      obtain ⟨j, hj⟩ := List.mem_iff_getElem?.mp hb
      obtain ⟨b', hj', hblock⟩ := hgrows.block j b hj
      have hclosed : b.isClosed = true := by simp [Block.isClosed, ht]
      rw [hblock.eq_of_closed hclosed] at hj'
      exact .terminator (List.mem_of_getElem? hj') ht type

/-- A number that a value without an instruction has is not found in its function. -/
theorem Function.NamesNoInstr.locate?_eq_none
    {position id owner : Nat} {f : Function} {type : Ty}
    (hv : f.NamesNoInstr (.temp id type owner))
    (hwell : f.WellFormed position)
    (hf : f.Numbered) :
    owner = position ∧ f.locate? id = none := by
  cases hv with
  | param hp =>
      exact ⟨hwell.index_eq, hf.locate?_param hp⟩
  | constant hv =>
      cases hv
  | @terminator b t hb ht =>
      have hcontents : t ∈ b.contents := List.mem_append_right _ (by simp [ht])
      exact ⟨hwell.contents_parent_eq b hb t hcontents, hf.locate?_terminator hb ht⟩

/-- An emission puts the instruction whose handle it returns into the current block. -/
theorem World.Fresh.emitted
    {start : World} {calls : List (Nat × Call)} {b : Nat} {builder : Builder}
    {e : Emission Value} {v : Value}
    (hstart : start.Fresh)
    (hb : (start.after calls).builders[b]? = some builder)
    (hok : ((start.after calls).call b (.emit e)).1 = .ok (.value v)) :
    ∃ (a : BlockAddr) (i : Instr) (block : Block), builder.cursor.block = some a ∧
      e.draft = .ok i.toDraft ∧ i.parent = a.functionAt ∧ v = i.handle ∧
      a.read? (start.after (calls ++ [(b, .emit e)])).modules = some block ∧
      i ∈ block.instrs := by
  obtain ⟨draft, a, hdraft, ha, hevent⟩ := event?_emit hb hok
  let p : Placement := ⟨a, false, draft, builder.loc, .value v⟩
  have hplacements : placementsInto a.function (start.history (calls ++ [(b, .emit e)])) =
      placementsInto a.function (start.history calls) ++ [p] := by
    rw [history_concat, hevent, Option.toList_some, placementsInto_append]
    simp [placementsInto, p]
  have hrecorded := hstart.recorded (calls ++ [(b, .emit e)])
  cases hf : a.function.read? (start.after (calls ++ [(b, .emit e)])).modules with
  | none =>
      have hempty := (hrecorded.absent _ hf).2
      rw [hplacements] at hempty
      simp at hempty
  | some f =>
      obtain ⟨d, _, hrecords⟩ := hrecorded.function _ f hf
      rw [hplacements] at hrecords
      obtain ⟨hreply, block, hblock, hstored⟩ :=
        hrecords.placed _ p (List.getElem?_concat_length ..)
      refine ⟨a, _, block, ha, hdraft, rfl, Reply.value.inj hreply, ?_, hstored⟩
      rw [BlockAddr.read?_eq, hf]
      exact hblock

end Growing

namespace World

variable {start : World}

/--
Handles stay good and name nothing else.

An emission puts an instruction into the current block of its builder and returns the handle of
the instruction.  In every later world the block still has this instruction, and nothing else in
the function has its number.  A builder of the module whose current function is that of the block
is then placed next to the instruction by the handle, at the index where it is now; in any other
function of the module the handle is not found.  Values that name no instruction of a function
are never found, by any builder of the module, and a call that does not find what it is given
changes nothing.
-/
theorem handles_stay_good
    (hstart : start.Fresh)
    (calls : List (Nat × Call)) :
    (∀ b builder e v, (start.after calls).builders[b]? = some builder →
      ((start.after calls).call b (.emit e)).1 = .ok (.value v) →
      ∃ (a : BlockAddr) (i : Instr), builder.cursor.block = some a ∧
        e.draft = .ok i.toDraft ∧ v = i.handle ∧
        ∀ later w, w = start.after (calls ++ (b, .emit e) :: later) →
          ∃ f block index, a.function.read? w.modules = some f ∧
            f.blocks[a.blockAt]? = some block ∧ block.instrs[index]? = some i ∧
            (f.blocks.flatMap Block.contents).filter (fun j => j.id == i.id) = [i] ∧
            ∀ (b' : Nat) builder' side, w.builders[b']? = some builder' →
              builder'.home = a.moduleAt →
              (builder'.cursor.function = some a.function →
                w.call b' (.position side v) =
                  (.ok .nothing, w.settle b' ((w.benchOf builder').moveTo
                    { builder'.cursor with block := some a, anchor := side.anchor index }))) ∧
              (builder'.cursor.function ≠ some a.function →
                ∃ error, w.call b' (.position side v) = (.error error, w) ∧
                  error.kind = .notFound)) ∧
    ∀ a f v, FunctionAddr.read? a (start.after calls).modules = some f → f.NamesNoInstr v →
      ∀ later w, w = start.after (calls ++ later) →
        ∀ (b : Nat) builder side, w.builders[b]? = some builder → builder.home = a.moduleAt →
          ∃ error, w.call b (.position side v) = (.error error, w) ∧ error.kind = .notFound := by
  have hreachable : ∀ calls', (start.after calls').Reachable :=
    fun calls' => ⟨start, calls', hstart, rfl⟩
  constructor
  · intro b builder e v hb hok
    obtain ⟨a, i, block, ha, hdraft, hparent, rfl, hread, hi⟩ := hstart.emitted hb hok
    refine ⟨a, i, ha, hdraft, rfl, ?_⟩
    rintro later w rfl
    have hw := hreachable (calls ++ (b, .emit e) :: later)
    rw [List.append_cons, after_append] at hw ⊢
    obtain ⟨block', hread', hgrows⟩ :=
      ((hreachable (calls ++ [(b, .emit e)])).wellFormed.grows_after later).block hread
    rw [BlockAddr.read?_eq, Option.bind_eq_some_iff] at hread'
    obtain ⟨f, hf, hblock⟩ := hread'
    obtain ⟨index, hindex⟩ := List.mem_iff_getElem?.mp (hgrows.instrs_sublist.subset hi)
    have hnumbered := hw.numbered _ f hf
    have hfindex : f.index = i.parent :=
      (hw.wellFormed.code.function _ f hf).index_eq.trans hparent.symm
    refine ⟨f, block', index, hf, hblock, hindex,
      hnumbered.filter_id_eq_singleton (List.mem_of_getElem? hblock)
        (List.mem_append_left _ (List.mem_of_getElem? hindex)), ?_⟩
    intro b' builder' side hb' hhome
    constructor
    · intro hfunction
      exact call_position_of_ok hb'
        (Bench.locate_handle hfunction hf hnumbered hfindex hblock hindex side)
    · intro hfunction
      refine hw.wellFormed.call_position_not_found hf hb' hhome ?_ side
      rintro id type owner ⟨⟩
      exact ⟨hparent, fun h => absurd h hfunction⟩
  · intro a f v hf hv
    rintro later w rfl
    have hw := hreachable (calls ++ later)
    rw [after_append] at hw ⊢
    obtain ⟨f', hf', hgrows⟩ := ((hreachable calls).wellFormed.grows_after later).function a f hf
    intro b builder side hb hhome
    refine hw.wellFormed.call_position_not_found hf' hb hhome ?_ side
    rintro id type owner rfl
    obtain ⟨howner, hnone⟩ := (hv.mono hgrows).locate?_eq_none
      (hw.wellFormed.code.function a f' hf') (hw.numbered a f' hf')
    exact ⟨howner, fun _ => hnone⟩

/--
In the example the sum `y` has been moved by a load that was put in front of it.  Its handle finds
it where it is now, and the parameter `x` is not found.
-/
theorem pairCalls_handles :
    let x : Value := .temp 0 (Ty.int 32) 0
    let y : Value := .temp 1 (Ty.int 32) 0
    let w := pair.after pairCalls
    ((pair.after (pairCalls.take 4)).call 0 (.emit (.binary .add x x "y"))).1 =
        .ok (.value y) ∧
      (∃ f block index i, FunctionAddr.read? ⟨0, 0⟩ w.modules = some f ∧
        f.blocks[0]? = some block ∧ block.instrs[index]? = some i ∧ i.name = "y" ∧
        (w.call 1 (.position .after y)).1 = .ok .nothing ∧
        (w.call 1 (.position .after y)).2.builders.map (·.cursor.anchor) = [1, index + 1]) ∧
      ∃ error, w.call 1 (.position .after x) = (.error error, w) := by
  intro x y w
  have hemitter : (pair.after (pairCalls.take 4)).builders[0]? =
      some { cursor := ⟨some ⟨0, 0⟩, some ⟨0, 0, 0⟩, 0⟩ } := by
    decide +kernel
  have hok : ((pair.after (pairCalls.take 4)).call 0 (.emit (.binary .add x x "y"))).1 =
      .ok (.value y) :=
    rfl
  have hbuilders : w.builders =
      [{ cursor := ⟨some ⟨0, 0⟩, some ⟨0, 0, 0⟩, 1⟩ },
        { cursor := ⟨some ⟨0, 0⟩, some ⟨0, 0, 0⟩, 1⟩ }] := by
    decide +kernel
  have hb : w.builders[1]? = some { cursor := ⟨some ⟨0, 0⟩, some ⟨0, 0, 0⟩, 1⟩ } := by
    rw [hbuilders]
    rfl
  obtain ⟨hgood, hnone⟩ := handles_stay_good pair_fresh (pairCalls.take 4)
  refine ⟨hok, ?_, ?_⟩
  · obtain ⟨a, i, ha, hdraft, hvalue, hlater⟩ := hgood 0 _ _ _ hemitter hok
    cases ha
    have hname : i.name = "y" := congrArg Draft.name (Except.ok.inj hdraft.symm)
    obtain ⟨f, block, index, hf, hblock, hi, _, hposition⟩ := hlater (pairCalls.drop 5) w rfl
    have hcall := (hposition 1 _ .after hb rfl).1 rfl
    refine ⟨f, block, index, i, hf, hblock, hi, hname, ?_, ?_⟩
    · rw [hcall]
    · rw [hcall]
      simp [settle, hbuilders, Bench.moveTo, Side.anchor]
  · have hread : (FunctionAddr.read? ⟨0, 0⟩ (pair.after (pairCalls.take 4)).modules).map
        (fun f => (f.index, f.params.map Param.id)) = some (0, [0]) := by
      decide +kernel
    obtain ⟨f, hf, hvalues⟩ := Option.map_eq_some_iff.mp hread
    simp only [Prod.mk.injEq] at hvalues
    obtain ⟨hindex, hparams⟩ := hvalues
    obtain ⟨p, hp, hid⟩ := List.mem_map.mp (hparams ▸ List.mem_singleton_self 0)
    have hx : f.NamesNoInstr x := by
      have hparam := Function.NamesNoInstr.param hp (Ty.int 32)
      rwa [hid, hindex] at hparam
    obtain ⟨error, hcall, _⟩ := hnone _ f x hf hx (pairCalls.drop 4) w rfl 1 _ .after hb rfl
    exact ⟨error, hcall⟩

end World

end ThreeAddress
