import ThreeAddress.Proofs.Failures

/-!
# Handles in another module

A handle names an instruction by its number and by the position of its function, and it does not
name a module.  In another module than that of its instruction it is taken to name what has this
number in the function at this position there, its twin.

So a builder of another module is placed next to the twin if its current function has one, and it
reports that nothing is found only if there is none (`World.foreign_handles_determined`).  Blocks
are told apart by their addresses: in another module than its own a block is never entered.
-/

namespace ThreeAddress

/-- The instruction of a builder's current function that a handle of `i` names there. -/
structure Builder.Twin
    (builder : Builder) (modules : List Module) (i : Instr)
    (a : BlockAddr) (index : Nat) (twin : Instr) : Prop where
  current : builder.cursor.function = some a.function
  stored : ∃ block, a.read? modules = some block ∧ block.instrs[index]? = some twin
  parent_eq : twin.parent = i.parent
  id_eq : twin.id = i.id

section Locating

variable {s : Bench} {i : Instr} {side : Side}

/-- The type that is written into a handle has no part in what is located by it. -/
theorem Bench.locate_temp_ok
    {id owner : Nat} {type : Ty} {found : BlockAddr × Nat}
    (hlocate : s.locate side (.temp id type owner) = .ok found)
    (type' : Ty) :
    s.locate side (.temp id type' owner) = .ok found := by
  simp only [locate] at hlocate ⊢
  grind

/-- A builder locates the twin of an instruction by the handle of the instruction. -/
theorem Bench.locate_twin
    {a : BlockAddr} {index : Nat} {twin : Instr}
    (hcode : WellFormedCode s.modules)
    (hnumbered : ∀ a f, FunctionAddr.read? a s.modules = some f → f.Numbered)
    (htwin : s.builder.Twin s.modules i a index twin)
    (side : Side) :
    s.locate side i.handle = .ok (a, index) := by
  obtain ⟨block, hread, hindex⟩ := htwin.stored
  rw [BlockAddr.read?_eq, Option.bind_eq_some_iff] at hread
  obtain ⟨f, hf, hblock⟩ := hread
  have hwell := hcode.function _ f hf
  have hparent : twin.parent = a.functionAt :=
    hwell.contents_parent_eq block (List.mem_of_getElem? hblock) twin
      (List.mem_append_left _ (List.mem_of_getElem? hindex))
  have hlocate := Bench.locate_handle htwin.current hf (hnumbered _ f hf)
    (hwell.index_eq.trans hparent.symm) hblock hindex side
  rw [Instr.handle, htwin.parent_eq, htwin.id_eq] at hlocate
  exact Bench.locate_temp_ok hlocate i.type

/-- What a builder finds by the handle of an instruction is a twin of the instruction. -/
theorem Builder.Finds.exists_twin
    {builder : Builder} {modules : List Module}
    (hfinds : builder.Finds modules i.handle) :
    ∃ a index twin, builder.Twin modules i a index twin := by
  obtain ⟨a, f, b, twin, hcurrent, hf, hb, htwin, type, hhandle⟩ := hfinds
  obtain ⟨hid, -, hparent⟩ := Value.temp.inj hhandle
  obtain ⟨j, hj⟩ := List.mem_iff_getElem?.mp hb
  obtain ⟨index, hindex⟩ := List.mem_iff_getElem?.mp htwin
  refine ⟨a.block j, index, twin, hcurrent, ⟨b, ?_, hindex⟩, hparent.symm, hid.symm⟩
  rw [BlockAddr.read?_eq, Option.bind_eq_some_iff]
  exact ⟨f, hf, hj⟩

end Locating

namespace World

variable {w start : World}

/-- Where the table lists a failure of a call, the call fails so and changes nothing. -/
theorem WellFormed.call_of_fails
    {b : Nat} {builder : Builder} {c : Call} {kind : FaultKind}
    (hw : w.WellFormed)
    (hb : w.builders[b]? = some builder)
    (hfails : c.Fails w.modules builder kind) :
    ∃ error, w.call b c = (.error error, w) ∧ error.kind = kind := by
  have hplaced := hw.builder builder (List.mem_of_getElem? hb)
  obtain ⟨error, herror, hkind⟩ :=
    (call_error_iff hb).mpr ((Call.plan_faults_iff hw.code hplaced).mpr hfails)
  exact ⟨error, Prod.ext herror (call_eq_self_of_error herror), hkind⟩

/--
What the handle of an instruction does in the hands of a builder of another module.

It names the twin of the instruction, if the builder's current function has one: then the builder
is placed next to the twin, in its own module.  If there is none the call fails because nothing is
found, and nothing changes.  The blocks of the instruction's module are never entered.
-/
theorem foreign_handles_determined
    (hstart : start.Fresh)
    (calls : List (Nat × Call)) :
    ∀ b builder e v, (start.after calls).builders[b]? = some builder →
      ((start.after calls).call b (.emit e)).1 = .ok (.value v) →
      ∃ i : Instr, e.draft = .ok i.toDraft ∧ v = i.handle ∧
        ∀ later w, w = start.after (calls ++ (b, .emit e) :: later) →
          ∀ (b' : Nat) builder', w.builders[b']? = some builder' →
            builder'.home ≠ builder.home →
            (∀ side,
              (∀ a index twin, builder'.Twin w.modules i a index twin →
                a.moduleAt = builder'.home ∧
                w.call b' (.position side v) =
                  (.ok .nothing, w.settle b' ((w.benchOf builder').moveTo
                    { builder'.cursor with block := some a, anchor := side.anchor index }))) ∧
              ((∀ a index twin, ¬ builder'.Twin w.modules i a index twin) →
                ∃ error, w.call b' (.position side v) = (.error error, w) ∧
                  error.kind = .notFound)) ∧
            ∀ edge (a : BlockAddr), a.moduleAt = builder.home →
              ∃ error, w.call b' (.positionAt edge a) = (.error error, w) ∧
                error.kind = .invalidArgument := by
  intro b builder e v hb hok
  obtain ⟨_, i, _, _, hdraft, _, rfl, _⟩ := hstart.emitted hb hok
  refine ⟨i, hdraft, rfl, ?_⟩
  rintro later w rfl b' builder' hb' hhome
  have hw : (start.after (calls ++ (b, .emit e) :: later)).Reachable := ⟨start, _, hstart, rfl⟩
  have hwell := hw.wellFormed
  refine ⟨fun side => ⟨?_, ?_⟩, ?_⟩
  · intro a index twin htwin
    have hplaced := hwell.builder builder' (List.mem_of_getElem? hb')
    refine ⟨(hplaced.function _ htwin.current).1, ?_⟩
    exact call_position_of_ok hb' (Bench.locate_twin hwell.code hw.numbered htwin side)
  · intro hnone
    refine hwell.call_of_fails hb' ⟨rfl, fun hfinds => ?_⟩
    obtain ⟨a, index, twin, htwin⟩ := hfinds.exists_twin
    exact hnone a index twin htwin
  · intro edge a ha
    exact hwell.call_of_fails hb' ⟨rfl, fun _ _ => ha ▸ hhome.symm⟩

/-- A fresh world of two modules, with a builder on each. -/
def neighbours : World :=
  ({} : World).addModule {} |>.addModule {} |>.addBuilder 0 {} |>.addBuilder 1 {}

theorem neighbours_fresh :
    neighbours.Fresh where
  modules_empty := by simp [neighbours, addModule, addBuilder]
  builders_home := by simp [neighbours, addModule, addBuilder]
  builders_nowhere := by simp [neighbours, addModule, addBuilder]

/-- The builder of a module starts a function, and in it a block with an addition. -/
def doubling (home : Nat) (name : String) : List (Nat × Call) :=
  let x : Value := .temp 0 (Ty.int 32) 0
  [(home, .startFunction name Ty.void [("x", Ty.int 32)]),
    (home, .createBlock ⟨home, 0⟩ "entry"),
    (home, .positionAt .finish ⟨home, 0, 0⟩),
    (home, .emit (.binary .add x x ""))]

/-- Both builders do so, the second one first; the last call is the first one's addition. -/
def doublings : List (Nat × Call) :=
  doubling 1 "g" ++ doubling 0 "f"

theorem doublings_emitter :
    (neighbours.after (doublings.take 7)).builders[0]? =
      some ⟨0, {}, ⟨some ⟨0, 0⟩, some ⟨0, 0, 0⟩, 0⟩, {}⟩ := by
  decide +kernel

theorem doublings_emission :
    let x : Value := .temp 0 (Ty.int 32) 0
    ((neighbours.after (doublings.take 7)).call 0 (.emit (.binary .add x x ""))).1 =
      .ok (.value (.temp 1 (Ty.int 32) 0)) :=
  rfl

theorem doublings_stranger :
    (neighbours.after doublings).builders[1]? =
      some ⟨1, {}, ⟨some ⟨1, 0⟩, some ⟨1, 0, 0⟩, 1⟩, {}⟩ := by
  decide +kernel

/--
The handle of the addition in the first module places the builder of the second module in front of
the addition there.  The block of the first module does not place it anywhere.
-/
theorem doublings_foreign_handle :
    let v : Value := .temp 1 (Ty.int 32) 0
    let w := neighbours.after doublings
    (w.call 1 (.position .before v)).1 = .ok .nothing ∧
      (w.call 1 (.position .before v)).2.builders[1]? =
        some ⟨1, {}, ⟨some ⟨1, 0⟩, some ⟨1, 0, 0⟩, 0⟩, {}⟩ ∧
      ∃ error, w.call 1 (.positionAt .start ⟨0, 0, 0⟩) = (.error error, w) := by
  intro v w
  obtain ⟨i, _, hvalue, hlater⟩ :=
    foreign_handles_determined neighbours_fresh (doublings.take 7) 0 _ _ _ doublings_emitter
      doublings_emission
  obtain ⟨hid, -, hparent⟩ := Value.temp.inj hvalue
  obtain ⟨hposition, hentry⟩ := hlater [] w rfl 1 _ doublings_stranger (by decide)
  have hread : (BlockAddr.read? ⟨1, 0, 0⟩ w.modules).map
      (fun block => block.instrs.map fun j => (j.id, j.parent)) = some [(1, 0)] := by
    decide +kernel
  obtain ⟨block, hblock, hnumbers⟩ := Option.map_eq_some_iff.mp hread
  obtain ⟨twin, hinstrs, hnumber⟩ := List.map_eq_singleton_iff.mp hnumbers
  obtain ⟨htwinid, htwinparent⟩ := Prod.mk.inj hnumber
  have htwin : Builder.Twin ⟨1, {}, ⟨some ⟨1, 0⟩, some ⟨1, 0, 0⟩, 1⟩, {}⟩ w.modules i
      ⟨1, 0, 0⟩ 0 twin :=
    ⟨rfl, ⟨block, hblock, by rw [hinstrs]; rfl⟩, htwinparent.trans hparent,
      htwinid.trans hid⟩
  have hcall := ((hposition .before).1 _ _ _ htwin).2
  obtain ⟨error, hrejected, _⟩ := hentry .start ⟨0, 0, 0⟩ rfl
  refine ⟨?_, ?_, error, hrejected⟩
  · rw [hcall]
  · have hlength := (List.getElem?_eq_some_iff.mp doublings_stranger).1
    rw [hcall]
    exact List.getElem?_set_self hlength

/-- Not every handle of another module is rejected. -/
theorem doublings_handle_accepted :
    ¬ ∀ start : World, start.Fresh → ∀ calls b builder e v,
      (start.after calls).builders[b]? = some builder →
      ((start.after calls).call b (.emit e)).1 = .ok (.value v) →
      ∀ later w, w = start.after (calls ++ (b, .emit e) :: later) →
        ∀ (b' : Nat) builder', w.builders[b']? = some builder' →
          builder'.home ≠ builder.home →
          ∀ side, ∃ error, w.call b' (.position side v) = (.error error, w) ∧
            error.kind = .notFound := by
  intro h
  obtain ⟨error, hrejected, _⟩ := h neighbours neighbours_fresh (doublings.take 7) 0 _ _ _
    doublings_emitter doublings_emission [] _ rfl 1 _ doublings_stranger (by decide) .before
  have haccepted : ((neighbours.after doublings).call 1
      (.position .before (.temp 1 (Ty.int 32) 0))).1 = .ok .nothing :=
    rfl
  have herror := congrArg Prod.fst hrejected
  cases haccepted.symm.trans herror

end World

end ThreeAddress
