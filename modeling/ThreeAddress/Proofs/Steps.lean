import ThreeAddress.Proofs.Checks
import ThreeAddress.Proofs.WellFormed

/-!
# Calls in well-formed worlds

A call in a well-formed world adds to the code as `Addition` says (`Bench.Step.addition`): the
number of an instruction is given out by the function that holds its block.  The cursor it leaves
is well placed in the code it leaves (`Bench.Step.wellPlaced`).
-/

namespace ThreeAddress

section Steps

namespace Bench

variable {s s' : Bench}

/-- The modules after an instruction was recorded are those before. -/
@[simp]
theorem record_modules
    (s : Bench)
    (b : Block)
    (position : Nat)
    (i : Instr) :
    (s.record b position i).modules = s.modules := by
  unfold record
  split <;> rfl

@[simp]
theorem record_builder
    (s : Bench)
    (b : Block)
    (position : Nat)
    (i : Instr) :
    (s.record b position i).builder = s.builder := by
  unfold record
  split <;> rfl

/-- The module of a builder is where the builder says. -/
theorem modules_home
    (hhome : s.builder.home < s.modules.length) :
    s.modules[s.builder.home]? = some s.home := by
  simp [home, List.getElem?_eq_getElem hhome, List.getD_eq_getElem?_getD]

/--
The block under a well-placed cursor: it is in a function at home, its parent is the position of
that function, and the anchor is in it.
-/
theorem site_wellPlaced
    (hcode : WellFormedCode s.modules)
    (hbuilder : s.builder.WellPlaced s.modules)
    {site : Site}
    (hsite : s.site? = some site) :
    site.address.function = ⟨s.builder.home, site.block.parent⟩ ∧
      site.anchor ≤ site.block.size ∧
      ∃ f, s.function? site.block.parent = some f ∧
        site.address.function.read? s.modules = some f ∧
        f.blocks[site.address.blockAt]? = some site.block := by
  obtain ⟨hcursor, hread, hanchor⟩ := site?_eq_some_iff.mp hsite
  obtain ⟨hfunction, b, hb, hle⟩ := hbuilder.block _ hcursor
  obtain ⟨hhome, _⟩ := hbuilder.function _ hfunction
  rw [hread] at hb
  cases hb
  rw [BlockAddr.read?_eq, Option.bind_eq_some_iff] at hread
  obtain ⟨f, hf, hblock⟩ := hread
  have hparent := (hcode.function _ _ hf).parent_eq _ (List.mem_of_getElem? hblock)
  have haddress : site.address.function = ⟨s.builder.home, site.block.parent⟩ := by
    rw [hparent, ← hhome]
  refine ⟨haddress, hanchor ▸ hle, f, ?_, hf, hblock⟩
  rw [function?_eq, ← haddress, hf]

/--
The block that an instruction goes into: it is open, in a function at home, and that function
gives the instruction its number.
-/
theorem openSite_wellPlaced
    (hcode : WellFormedCode s.modules)
    (hbuilder : s.builder.WellPlaced s.modules)
    {op : Opcode} {site : Site}
    (hsite : s.openSite op = .ok site)
    (d : Draft) :
    site.block.terminator = none ∧
      site.address.function = ⟨s.builder.home, (s.stamp site.block d).parent⟩ ∧
      ∃ f, site.address.function.read? s.modules = some f ∧
        f.blocks[site.address.blockAt]? = some site.block ∧
        ∀ closing reply,
          s.stamp site.block d =
            (⟨site.address, closing, d, s.builder.loc, reply⟩ : Placement).instr f.nextId := by
  obtain ⟨hsite, hopen⟩ := openSite_eq_ok_iff.mp hsite
  obtain ⟨haddress, _, f, hfunction, hf, hblock⟩ := site_wellPlaced hcode hbuilder hsite
  have hparent : site.address.functionAt = site.block.parent :=
    congrArg FunctionAddr.functionAt haddress
  refine ⟨hopen, haddress, f, hf, hblock, ?_⟩
  intro closing reply
  simp [stamp, Placement.instr, hfunction, hparent]

/-- The number and the change of a block are one change of the function that holds it. -/
theorem commit_modules
    {site : Site} {i : Instr}
    (haddress : site.address.function = ⟨s.builder.home, i.parent⟩)
    (change : Block → Block) :
    (s.commit site i change).modules =
      site.address.function.modify
        (fun f => f.place site.address.blockAt i change) s.modules := by
  have hreserve : (s.modifyHome fun m =>
      m.modifyFunction i.parent fun f => f.reserve i.name).modules =
        site.address.function.modify (fun f => f.reserve i.name) s.modules := by
    rw [haddress]
    rfl
  simp only [commit, hreserve, BlockAddr.modify_eq, FunctionAddr.modify_modify]
  rfl

theorem insert_modules
    {site : Site} {i : Instr}
    (haddress : site.address.function = ⟨s.builder.home, i.parent⟩) :
    (s.insert site i).modules =
      site.address.function.modify
        (fun f => f.place site.address.blockAt i fun b => b.insert (insertPosition site) i)
        s.modules := by
  simp only [insert, record_modules, moveTo]
  exact commit_modules haddress _

theorem insert_builder
    (site : Site)
    (i : Instr) :
    (s.insert site i).builder =
      { s.builder with
        cursor := { s.builder.cursor with anchor := insertPosition site + 1 } } := by
  simp only [insert, record_builder]
  rfl

theorem close_modules
    {site : Site} {i : Instr}
    (haddress : site.address.function = ⟨s.builder.home, i.parent⟩) :
    (s.close site i).modules =
      site.address.function.modify
        (fun f => f.place site.address.blockAt i fun b => b.close i) s.modules := by
  simp only [close, record_modules]
  exact commit_modules haddress _

theorem close_builder
    (site : Site)
    (i : Instr) :
    (s.close site i).builder = s.builder := by
  simp only [close, record_builder]
  rfl

/-- A call adds to the code what it adds to the history. -/
theorem Step.addition
    {c : Call} {reply : Reply}
    (hstep : s.Step c reply s')
    (hcode : WellFormedCode s.modules)
    (hbuilder : s.builder.WellPlaced s.modules) :
    Addition s.modules (s.event? reply c) s'.modules := by
  cases hstep with
  | startFunction hcheck hf =>
      obtain ⟨hname, hnew, hparams⟩ := admitFunction_eq_ok_iff.mp hcheck
      have hhome := modules_home hbuilder.home_lt
      subst hf
      exact .function hhome rfl hname hnew hparams
  | @createBlock a label f hf hcheck =>
      obtain ⟨hlabel, hnew⟩ := admitBlock_eq_ok_iff.mp hcheck
      cases hread : a.read? s.modules with
      | none =>
          simp only [FunctionAddr.modify_eq_self hread]
          exact .nothing
      | some f' =>
          rw [hread] at hf
          subst hf
          exact .block hread hlabel hnew
  | param hparam =>
      exact .nothing
  | position hlocate =>
      exact .nothing
  | positionAt hentry =>
      exact .nothing
  | setLoc =>
      exact .nothing
  | constant hconstant =>
      exact .nothing
  | @emit e d site i hdraft hsite hi =>
      obtain ⟨hopen, haddress, f, hf, hblock, hstamp⟩ :=
        openSite_wellPlaced hcode hbuilder hsite d
      rw [← hi] at haddress hstamp
      let p : Placement := ⟨site.address, false, d, s.builder.loc, .value i.handle⟩
      have hevent : s.event? (.value i.handle) (.emit e) = some (.placement p) :=
        event?_of_draft hdraft (cursor_of_openSite hsite) _
      have hinstr : i = p.instr f.nextId := hstamp false _
      rw [hevent, insert_modules haddress, hinstr]
      exact .instr hf hblock hopen rfl hdraft (congrArg (Reply.value ·.handle) hinstr)
  | @terminate t d site i hdraft hsite hi =>
      obtain ⟨hopen, haddress, f, hf, hblock, hstamp⟩ :=
        openSite_wellPlaced hcode hbuilder hsite d
      rw [← hi] at haddress hstamp
      let p : Placement := ⟨site.address, true, d, s.builder.loc, .instr i⟩
      have hevent : s.event? (.instr i) (.terminate t) = some (.placement p) := by
        rw [event?_of_terminate (cursor_of_openSite hsite), ← hdraft]
      have hinstr : i = p.instr f.nextId := hstamp true _
      rw [hevent, close_modules haddress, hinstr]
      exact .terminator hf hblock hopen rfl hdraft (congrArg Reply.instr hinstr)

/-- The cursor of a builder is where a call put it, also after the call. -/
theorem Step.wellPlaced
    {c : Call} {reply : Reply}
    (hstep : s.Step c reply s')
    (hcode : WellFormedCode s.modules)
    (hbuilder : s.builder.WellPlaced s.modules) :
    s'.builder.WellPlaced s'.modules := by
  have hgrows := (hstep.addition hcode hbuilder).grows
  cases hstep with
  | @startFunction name result params f hcheck hf =>
      refine ⟨(hbuilder.mono hgrows).home_lt, ?_, by simp [openFunction, moveTo],
        fun _ => rfl⟩
      intro a ha
      cases ha
      refine ⟨rfl, f, ?_⟩
      have hhome := modules_home hbuilder.home_lt
      exact (read?_addFunction hhome _ f _).trans (if_pos rfl)
  | createBlock hf hcheck =>
      exact hbuilder.mono hgrows
  | param hparam =>
      exact hbuilder
  | @position side v a index hlocate =>
      obtain ⟨hfunction, b, hb, hindex⟩ := locate_eq_ok hlocate
      refine ⟨hbuilder.home_lt, hbuilder.function, ?_, by simp [moveTo]⟩
      intro a' ha'
      cases ha'
      refine ⟨hfunction, b, hb, ?_⟩
      cases side <;> simp only [Side.anchor, moveTo] <;> omega
  | @positionAt edge a b hentry =>
      obtain ⟨hb, hhome, _⟩ := entry_eq_ok_iff.mp hentry
      refine ⟨hbuilder.home_lt, ?_, ?_, by simp [moveTo]⟩
      · intro a' ha'
        cases ha'
        rw [BlockAddr.read?_eq, Option.bind_eq_some_iff] at hb
        obtain ⟨f, hf, _⟩ := hb
        exact ⟨hhome, f, hf⟩
      · intro a' ha'
        cases ha'
        refine ⟨rfl, b, hb, ?_⟩
        cases edge <;> simp [Edge.anchor, moveTo]
  | setLoc =>
      exact ⟨hbuilder.home_lt, hbuilder.function, hbuilder.block, hbuilder.anchor_eq_zero⟩
  | constant hconstant =>
      exact hbuilder
  | @emit e d site i hdraft hsite hi =>
      obtain ⟨hsite, _⟩ := openSite_eq_ok_iff.mp hsite
      obtain ⟨hcursor, hread, _⟩ := site?_eq_some_iff.mp hsite
      obtain ⟨haddress, _⟩ := site_wellPlaced hcode hbuilder hsite
      have hread' : site.address.read? (s.insert site i).modules =
          some (site.block.insert (insertPosition site) i) := by
        rw [insert_modules (by subst hi; exact haddress), read?_place, if_pos rfl, hread]
        rfl
      rw [insert_builder]
      refine (hbuilder.mono hgrows).moveAnchor hcursor hread' ?_
      simp only [Block.size, Block.insert, insertPosition, List.length_append, List.length_cons,
        List.length_take, List.length_drop]
      omega
  | terminate hdraft hsite hi =>
      rw [close_builder]
      exact hbuilder.mono hgrows

end Bench

end Steps

end ThreeAddress
