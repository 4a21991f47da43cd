import ThreeAddress.Proofs.Steps

/-!
# What calls in one function see and change

A call is confined to a function if it creates blocks in it only, goes to blocks of it only, and
ends blocks with jumps into it only.  A builder that stands in the function then sees the function
itself, of all others at most the header, and nothing of the trace.

`Bench.exists_effect` says this for what a call reads and writes at once: one effect, which is a
reply, a builder and a change of the function, is what the call does at every bench that looks
alike from the function.
-/

namespace ThreeAddress

/-- The blocks that a termination names. -/
def Termination.targets {ν β : Type} : Termination ν β → List β
  | .jump target => [target]
  | .branch _ onTrue onFalse => [onTrue, onFalse]
  | .ret _ => []

/-- A call stays in a function: every block it creates, goes to or jumps to is in it. -/
def Call.Confined (f : FunctionAddr) : Call → Prop
  | .startFunction .. => False
  | .createBlock a _ => a = f
  | .positionAt _ a => a.function = f
  | .terminate t => ∀ a ∈ t.targets, a.function = f
  | .param .. | .position .. | .setLoc _ | .constant .. | .emit _ => True

instance (f : FunctionAddr) : DecidablePred (Call.Confined f)
  | .startFunction .. => inferInstanceAs (Decidable False)
  | .createBlock a _ => inferInstanceAs (Decidable (a = f))
  | .positionAt _ a => inferInstanceAs (Decidable (a.function = f))
  | .terminate t => inferInstanceAs (Decidable (∀ a ∈ t.targets, a.function = f))
  | .param .. | .position .. | .setLoc _ | .constant .. | .emit _ =>
      inferInstanceAs (Decidable True)

/-- What a function keeps while code is added to it. -/
def Function.header (f : Function) : Function :=
  { f with names := [], blocks := [] }

/-- What a call does where it is confined to a function. -/
structure Effect where
  reply : Except BuildError Reply
  builder : Builder
  /-- What becomes of the function. -/
  change : Function → Function

/-- An effect leaves the builder in the function, and the function its header. -/
structure Effect.Local (f : FunctionAddr) (e : Effect) : Prop where
  function_eq : e.builder.cursor.function = some f
  header_change : ∀ g, (e.change g).header = g.header

section Changes

/-- Changes at different positions of a list may be made in either order. -/
theorem modify_modify_of_ne
    {α : Type} {i j : Nat}
    (hij : i ≠ j)
    (change change' : α → α)
    (l : List α) :
    (l.modify j change').modify i change = (l.modify i change).modify j change' := by
  apply List.ext_getElem?
  intro k
  grind

namespace FunctionAddr

theorem modify_id
    (f : FunctionAddr)
    (modules : List Module) :
    f.modify id modules = modules := by
  simp only [modify, Module.modifyFunction, List.modify_id]
  exact List.modify_id ..

/-- Changes of different functions may be made in either order. -/
theorem modify_comm
    {f g : FunctionAddr}
    (hfg : f ≠ g)
    (change change' : Function → Function)
    (modules : List Module) :
    f.modify change (g.modify change' modules) = g.modify change' (f.modify change modules) := by
  obtain ⟨m, i⟩ := f
  obtain ⟨m', j⟩ := g
  by_cases hm : m = m'
  · subst hm
    have hij : i ≠ j := fun heq => hfg (heq ▸ rfl)
    simp only [modify, List.modify_modify_eq]
    congr 1
    funext x
    simp [Module.modifyFunction, modify_modify_of_ne hij]
  · exact modify_modify_of_ne hm _ _ _

end FunctionAddr

end Changes

namespace Bench

/-- A call has an effect on a function, whatever it does to the trace. -/
structure Has (s : Bench) (f : FunctionAddr) (c : Call) (e : Effect) : Prop where
  reply_eq : (c.perform s).1 = e.reply
  builder_eq : (c.perform s).2.builder = e.builder
  modules_eq : (c.perform s).2.modules = f.modify e.change s.modules

/-- Two benches of one builder that look alike from a function. -/
structure Alike (f : FunctionAddr) (s s' : Bench) : Prop where
  builder_eq : s'.builder = s.builder
  own_eq : f.read? s'.modules = f.read? s.modules
  header_eq : ∀ a : FunctionAddr,
    (a.read? s'.modules).map Function.header = (a.read? s.modules).map Function.header

variable {s s' : Bench} {f : FunctionAddr} {c : Call}

section Reading

theorem Alike.block_eq
    (halike : s.Alike f s')
    {a : BlockAddr}
    (ha : a.function = f) :
    a.read? s'.modules = a.read? s.modules := by
  rw [BlockAddr.read?_eq, BlockAddr.read?_eq, ha, halike.own_eq]

theorem Alike.labelAt_eq
    (halike : s.Alike f s')
    {a : BlockAddr}
    (ha : a.function = f) :
    s'.labelAt a = s.labelAt a := by
  simp only [labelAt, halike.block_eq ha]

theorem Alike.draft_eq
    (halike : s.Alike f s')
    {t : Termination Value BlockAddr}
    (ht : ∀ a ∈ t.targets, a.function = f) :
    t.draft s'.labelAt = t.draft s.labelAt := by
  cases t with
  | jump target =>
      simp [Termination.targets] at ht
      simp [Termination.draft, halike.labelAt_eq ht]
  | branch condition onTrue onFalse =>
      simp [Termination.targets] at ht
      simp [Termination.draft, halike.labelAt_eq ht.1, halike.labelAt_eq ht.2]
  | ret value =>
      rfl

/-- The parameters of a function are in its header. -/
theorem Alike.parameter_eq
    (halike : s.Alike f s')
    (a : FunctionAddr)
    (index : Nat) :
    parameter ((a.read? s'.modules).getD default) index =
      parameter ((a.read? s.modules).getD default) index := by
  have hheader : ∀ modules,
      parameter ((a.read? modules).getD default) index =
        parameter (((a.read? modules).map Function.header).getD default) index := by
    intro modules
    cases a.read? modules <;> rfl
  rw [hheader, halike.header_eq a, ← hheader]

theorem Alike.locate_eq
    (halike : s.Alike f s')
    (hf : s.builder.cursor.function = some f)
    (side : Side)
    (v : Value) :
    s'.locate side v = s.locate side v := by
  simp only [locate, halike.builder_eq, hf, Option.bind_some, halike.own_eq]

theorem Alike.entry_eq
    (halike : s.Alike f s')
    (edge : Edge)
    {a : BlockAddr}
    (ha : a.function = f) :
    s'.entry edge a = s.entry edge a := by
  simp only [entry, halike.builder_eq, halike.block_eq ha]

/-- The current block of a well-placed builder is in its current function. -/
theorem Alike.site_eq
    (halike : s.Alike f s')
    (hf : s.builder.cursor.function = some f)
    (hbuilder : s.builder.WellPlaced s.modules) :
    s'.site? = s.site? := by
  simp only [site?, halike.builder_eq]
  cases ha : s.builder.cursor.block with
  | none =>
      rfl
  | some a =>
      have hfunction := (hbuilder.block a ha).1
      rw [hf, Option.some.injEq] at hfunction
      simp only [Option.bind_some, halike.block_eq hfunction.symm]

theorem Alike.openSite_eq
    (halike : s.Alike f s')
    (hf : s.builder.cursor.function = some f)
    (hbuilder : s.builder.WellPlaced s.modules)
    (op : Opcode) :
    s'.openSite op = s.openSite op := by
  simp only [openSite, halike.site_eq hf hbuilder]

/-- An instruction for a block of the function takes the same number and place. -/
theorem Alike.stamp_eq
    (halike : s.Alike f s')
    {b : Block}
    (hb : f = ⟨s.builder.home, b.parent⟩)
    (d : Draft) :
    s'.stamp b d = s.stamp b d := by
  simp only [stamp, function?_eq, halike.builder_eq, ← hb, halike.own_eq]

end Reading

section Effects

/-- The block that a builder's instruction goes into is in the builder's function. -/
theorem own_openSite
    (hcode : WellFormedCode s.modules)
    (hbuilder : s.builder.WellPlaced s.modules)
    (hf : s.builder.cursor.function = some f)
    {op : Opcode} {site : Site}
    (hsite : s.openSite op = .ok site) :
    site.address.function = f ∧ f = ⟨s.builder.home, site.block.parent⟩ := by
  have hfunction := (hbuilder.block _ (cursor_of_openSite hsite)).1
  rw [hf, Option.some.injEq] at hfunction
  refine ⟨hfunction.symm, ?_⟩
  rw [hfunction]
  exact (site_wellPlaced hcode hbuilder (openSite_eq_ok_iff.mp hsite).1).1

/-- A call that fails at all benches that look alike has no effect but its failure. -/
theorem exists_effect_of_fault
    (hf : s.builder.cursor.function = some f)
    (fault : Fault)
    (hplan : ∀ s', s.Alike f s' → c.plan s' = .error fault) :
    ∃ e : Effect, e.Local f ∧ ∀ s', s.Alike f s' → s'.Has f c e := by
  refine ⟨⟨.error (fault.raisedAt s.builder.loc), s.builder, id⟩, ⟨hf, fun _ => rfl⟩, ?_⟩
  intro s' halike
  constructor <;> simp [c.perform_eq_plan s', hplan s' halike, halike.builder_eq,
    FunctionAddr.modify_id]

/-- A call that replies alike at all benches that look alike, and changes the function alike. -/
theorem exists_effect_of_reply
    (reply : Reply)
    (after : Bench → Bench)
    (change : Function → Function)
    (hplan : ∀ s', s.Alike f s' → c.plan s' = .ok (reply, after s'))
    (hf : (after s).builder.cursor.function = some f)
    (hbuilder : ∀ s', s.Alike f s' → (after s').builder = (after s).builder)
    (hchange : ∀ g, (change g).header = g.header)
    (hmodules : ∀ s', s.Alike f s' → (after s').modules = f.modify change s'.modules) :
    ∃ e : Effect, e.Local f ∧ ∀ s', s.Alike f s' → s'.Has f c e := by
  refine ⟨⟨.ok reply, (after s).builder, change⟩, ⟨hf, hchange⟩, ?_⟩
  intro s' halike
  constructor <;> simp [c.perform_eq_plan s', hplan s' halike, hbuilder s' halike,
    hmodules s' halike]

/-- A call that makes one check and then changes nothing but its builder. -/
theorem exists_effect_of_check
    {α : Type}
    (check : Except Fault α)
    (reply : α → Reply)
    (move : α → Builder → Builder)
    (hplan : ∀ s', s.Alike f s' →
      c.plan s' = do
        let a ← check
        return (reply a, { s' with builder := move a s'.builder }))
    (hf : s.builder.cursor.function = some f)
    (hmove : ∀ a, (move a s.builder).cursor.function = some f) :
    ∃ e : Effect, e.Local f ∧ ∀ s', s.Alike f s' → s'.Has f c e := by
  cases check with
  | error fault =>
      exact exists_effect_of_fault hf fault hplan
  | ok a =>
      refine exists_effect_of_reply (reply a) (fun s' => { s' with builder := move a s'.builder })
        id hplan (hmove a) ?_ (fun _ => rfl) (fun s' _ => (f.modify_id s'.modules).symm)
      intro s' halike
      simp only [halike.builder_eq]

/-- A call that puts an instruction into the current block, if that is open. -/
theorem exists_effect_of_placement
    (hcode : WellFormedCode s.modules)
    (hbuilder : s.builder.WellPlaced s.modules)
    (hf : s.builder.cursor.function = some f)
    (d : Draft)
    (reply : Instr → Reply)
    (put : Bench → Site → Instr → Bench)
    (move : Site → Builder → Builder)
    (change : Site → Instr → Block → Block)
    (hplan : ∀ s', s.Alike f s' →
      c.plan s' = do
        let site ← s'.openSite d.op
        let i := s'.stamp site.block d
        return (reply i, put s' site i))
    (hmove : ∀ site, (move site s.builder).cursor.function = some f)
    (hput : ∀ s' site i, (put s' site i).builder = move site s'.builder)
    (hmodules : ∀ s' site i, site.address.function = ⟨s'.builder.home, i.parent⟩ →
      (put s' site i).modules =
        site.address.function.modify
          (fun g => g.place site.address.blockAt i (change site i)) s'.modules) :
    ∃ e : Effect, e.Local f ∧ ∀ s', s.Alike f s' → s'.Has f c e := by
  cases hsite : s.openSite d.op with
  | error fault =>
      refine exists_effect_of_fault hf fault ?_
      intro s' halike
      rw [hplan s' halike, halike.openSite_eq hf hbuilder, hsite, Plan.error_bind]
  | ok site =>
      -- The number comes from the function at the block's parent, which is `f`.
      obtain ⟨hfunction, haddress⟩ := own_openSite hcode hbuilder hf hsite
      let i := s.stamp site.block d
      refine exists_effect_of_reply (reply i) (fun s' => put s' site i)
        (fun g => g.place site.address.blockAt i (change site i)) ?_ ?_ ?_ (fun _ => rfl) ?_
      · intro s' halike
        rw [hplan s' halike, halike.openSite_eq hf hbuilder, hsite, Plan.ok_bind,
          halike.stamp_eq haddress]
        rfl
      · rw [hput]
        exact hmove site
      · intro s' halike
        rw [hput, hput, halike.builder_eq]
      · intro s' halike
        rw [hmodules s' site i (hfunction.trans (halike.builder_eq ▸ haddress)), hfunction]

/--
A confined call on a builder that stands in the function has one effect at all benches that look
alike from the function.
-/
theorem exists_effect
    (hcode : WellFormedCode s.modules)
    (hbuilder : s.builder.WellPlaced s.modules)
    (hf : s.builder.cursor.function = some f)
    (hc : c.Confined f) :
    ∃ e : Effect, e.Local f ∧ ∀ s', s.Alike f s' → s'.Has f c e := by
  cases c with
  | startFunction name result params =>
      cases hc
  | createBlock a label =>
      obtain rfl : a = f := hc
      cases hcheck : admitBlock ((a.read? s.modules).getD default) label with
      | error fault =>
          refine exists_effect_of_fault hf fault ?_
          intro s' halike
          simp only [Call.plan, halike.own_eq, hcheck]
          rfl
      | ok _ =>
          refine exists_effect_of_reply
            (.block (((a.read? s.modules).getD default).newBlock label))
            (fun s' => { s' with modules := a.modify (fun g => g.addBlock label) s'.modules })
            (fun g => g.addBlock label)
            ?_ hf (fun s' halike => halike.builder_eq) (fun _ => rfl) (fun _ _ => rfl)
          intro s' halike
          simp only [Call.plan, halike.own_eq, hcheck]
          rfl
  | param a index =>
      refine exists_effect_of_check (parameter ((a.read? s.modules).getD default) index)
        .value (fun _ builder => builder) ?_ hf (fun _ => hf)
      intro s' halike
      simp only [Call.plan, halike.parameter_eq]
  | position side v =>
      refine exists_effect_of_check (s.locate side v) (fun _ => .nothing)
        (fun p builder => { builder with
          cursor := { builder.cursor with block := some p.1, anchor := side.anchor p.2 } })
        ?_ hf (fun _ => hf)
      intro s' halike
      simp only [Call.plan, halike.locate_eq hf, moveTo]
  | positionAt edge a =>
      refine exists_effect_of_check (s.entry edge a) (fun _ => .nothing)
        (fun b builder => { builder with
          cursor := ⟨some a.function, some a, edge.anchor b.size⟩ })
        ?_ hf (fun _ => congrArg some hc)
      intro s' halike
      simp only [Call.plan, halike.entry_eq edge hc, moveTo]
  | setLoc loc =>
      exact exists_effect_of_check (.ok ()) (fun _ => .nothing)
        (fun _ builder => { builder with loc }) (fun _ _ => rfl) hf (fun _ => hf)
  | constant type x =>
      exact exists_effect_of_check (constant type x) .value (fun _ builder => builder)
        (fun _ _ => rfl) hf (fun _ => hf)
  | emit e =>
      cases hdraft : e.draft with
      | error fault =>
          refine exists_effect_of_fault hf fault ?_
          intro s' halike
          simp only [Call.plan, hdraft, Plan.error_bind]
      | ok d =>
          refine exists_effect_of_placement hcode hbuilder hf d (fun i => .value i.handle) insert
            (fun site builder => { builder with
              cursor := { builder.cursor with anchor := insertPosition site + 1 } })
            (fun site i b => b.insert (insertPosition site) i)
            ?_ (fun _ => hf) (fun s' => s'.insert_builder) (fun _ _ _ => insert_modules)
          intro s' halike
          simp only [Call.plan, hdraft, Plan.ok_bind]
  | terminate t =>
      refine exists_effect_of_placement hcode hbuilder hf (t.draft s.labelAt) .instr close
        (fun _ builder => builder) (fun _ i b => b.close i)
        ?_ (fun _ => hf) (fun s' => s'.close_builder) (fun _ _ _ => close_modules)
      intro s' halike
      simp only [Call.plan, halike.draft_eq hc]

end Effects

end Bench

end ThreeAddress
