import ThreeAddress.Proofs.Calls

/-!
# What the checks establish

A check that passes tells the change that follows it what it may rely on.  Each lemma of this
module says what one check establishes, in terms of what can be read in the modules.
-/

namespace ThreeAddress

namespace Function

/-- The instruction that a search for a number finds is there and has the number. -/
theorem locateIn?_eq_some
    {id : Nat} {blocks : List Block} {p : Position}
    (hp : locateIn? id blocks = some p) :
    ∃ b i, blocks[p.block]? = some b ∧ b.instrs[p.index]? = some i ∧ i.id = id := by
  induction blocks generalizing p with
  | nil =>
      simp [locateIn?] at hp
  | cons b rest ih =>
      simp only [locateIn?] at hp
      split at hp
      · rename_i index hindex
        cases hp
        obtain ⟨hlt, hid, _⟩ := List.findIdx?_eq_some_iff_getElem.mp hindex
        exact ⟨b, b.instrs[index], rfl, List.getElem?_eq_getElem hlt, by simpa using hid⟩
      · obtain ⟨q, hq, rfl⟩ := Option.map_eq_some_iff.mp hp
        exact ih hq

end Function

namespace Bench

variable {s : Bench}

/-- A function at home is read at its address. -/
theorem function?_eq
    (s : Bench)
    (position : Nat) :
    s.function? position = FunctionAddr.read? ⟨s.builder.home, position⟩ s.modules := by
  simp only [function?, home, FunctionAddr.read?, List.getD_eq_getElem?_getD]
  cases s.modules[s.builder.home]? <;> rfl

/-- A started function has a new name, and its parameters have values. -/
theorem admitFunction_eq_ok_iff
    {name : String} {params : List (String × Ty)} :
    s.admitFunction name params = .ok () ↔
      name ≠ "" ∧ (∀ f ∈ s.home.functions, f.name ≠ name) ∧
        ∀ p ∈ params, p.2.isVoid = false := by
  simp only [admitFunction, Module.findFunction?, List.findIdx?_isSome]
  by_cases hname : name = ""
  · simp [hname]
  by_cases hused : ∃ f ∈ s.home.functions, f.name = name
  · obtain ⟨f, hf, rfl⟩ := hused
    have hany : s.home.functions.any (fun g => g.name == f.name) = true :=
      List.any_eq_true.mpr ⟨f, hf, beq_self_eq_true _⟩
    simp only [hname, hany, if_true, if_false, reduceCtorEq, false_iff]
    exact fun h => h.2.1 f hf rfl
  · have hany : s.home.functions.any (fun g => g.name == name) = false := by
      simpa using hused
    simp only [hname, hany, Bool.false_eq_true, if_false]
    have hnew : ∀ f ∈ s.home.functions, f.name ≠ name :=
      fun f hf heq => hused ⟨f, hf, heq⟩
    cases hvoid : params.find? fun p => p.2.isVoid with
    | none =>
        have hparams : ∀ p ∈ params, p.2.isVoid = false := by
          simpa using hvoid
        exact iff_of_true rfl ⟨hname, hnew, hparams⟩
    | some p =>
        have hp := List.find?_some hvoid
        simp only [reduceCtorEq, false_iff]
        intro h
        rw [h.2.2 p (List.mem_of_find?_eq_some hvoid)] at hp
        cases hp

/-- A created block has a new label. -/
theorem admitBlock_eq_ok_iff
    {f : Function} {label : String} :
    admitBlock f label = .ok () ↔
      label ≠ "" ∧ ∀ b ∈ f.blocks, b.label ≠ label := by
  simp only [admitBlock, Function.findBlock?, List.findIdx?_isSome]
  split
  · simp_all
  · split <;> simp_all

/-- The block under the cursor is read at the cursor's address. -/
theorem site?_eq_some_iff
    {site : Site} :
    s.site? = some site ↔
      s.builder.cursor.block = some site.address ∧
        site.address.read? s.modules = some site.block ∧
        site.anchor = s.builder.cursor.anchor := by
  simp only [site?, Option.bind_eq_some_iff, Option.map_eq_some_iff]
  constructor
  · rintro ⟨a, ha, b, hb, rfl⟩
    exact ⟨ha, hb, rfl⟩
  · rintro ⟨ha, hb, hanchor⟩
    exact ⟨_, ha, _, hb, by rw [← hanchor]⟩

/-- An instruction goes into the block under the cursor, and only while that is open. -/
theorem openSite_eq_ok_iff
    {op : Opcode} {site : Site} :
    s.openSite op = .ok site ↔
      s.site? = some site ∧ site.block.terminator = none := by
  simp only [openSite]
  split
  · simp_all
  · rename_i site' hsite
    rw [hsite]
    cases hclosed : site'.block.terminator <;> simp [Block.isClosed, hclosed] <;> grind

theorem cursor_of_openSite
    {op : Opcode} {site : Site}
    (hsite : s.openSite op = .ok site) :
    s.builder.cursor.block = some site.address :=
  (site?_eq_some_iff.mp (openSite_eq_ok_iff.mp hsite).1).1

theorem openSite_of_closed
    {site : Site}
    (hsite : s.site? = some site)
    (hclosed : site.block.isClosed = true)
    (op : Opcode) :
    s.openSite op = .error (.blockClosed op site.block.label) := by
  simp [openSite, hsite, hclosed]

/-- A cursor goes to a block at home whose parent is the function that holds it. -/
theorem entry_eq_ok_iff
    {edge : Edge} {a : BlockAddr} {b : Block} :
    s.entry edge a = .ok b ↔
      a.read? s.modules = some b ∧ a.moduleAt = s.builder.home ∧ a.functionAt = b.parent := by
  simp only [entry]
  split <;> grind

/-- A cursor goes next to an instruction of the current function. -/
theorem locate_eq_ok
    {side : Side} {v : Value} {a : BlockAddr} {index : Nat}
    (hlocate : s.locate side v = .ok (a, index)) :
    s.builder.cursor.function = some a.function ∧
      ∃ b, a.read? s.modules = some b ∧ index < b.size := by
  unfold locate at hlocate
  split at hlocate
  · split at hlocate
    · cases hlocate
    · rename_i id _ owner _ fa f hcurrent
      simp only [Option.bind_eq_some_iff, Option.map_eq_some_iff, Prod.mk.injEq] at hcurrent
      obtain ⟨fa', hfa, f', hf, rfl, rfl⟩ := hcurrent
      split at hlocate
      · rename_i p hp
        cases hlocate
        split at hp
        · obtain ⟨b, i, hb, hi, _⟩ := Function.locateIn?_eq_some hp
          refine ⟨hfa, b, ?_, (List.getElem?_eq_some_iff.mp hi).1⟩
          rw [BlockAddr.read?_eq]
          exact Option.bind_eq_some_iff.mpr ⟨f', hf, hb⟩
        · cases hp
      · cases hlocate
  · cases hlocate

end Bench

/-- The block that is read at the cursor of a builder of a world. -/
theorem World.site?_benchOf
    {w : World} {builder : Builder} {a : BlockAddr} {block : Block}
    (ha : builder.cursor.block = some a)
    (hread : a.read? w.modules = some block) :
    (w.benchOf builder).site? = some ⟨a, builder.cursor.anchor, block⟩ :=
  Bench.site?_eq_some_iff.mpr ⟨ha, hread, rfl⟩

end ThreeAddress
