import ThreeAddress.Proofs.Growth

/-!
# Well-formed worlds

In a well-formed world functions and blocks have names and labels of their own, indices and
parents are positions, and every builder that has a current block has it in its current function,
in its own module.

Additions keep the code well-formed (`Addition.wellFormedCode`), and a builder stays well placed
while the code under it grows (`Builder.WellPlaced.mono`).
-/

namespace ThreeAddress

/-- Everything in a block, the instruction that ends it last. -/
def Block.contents (b : Block) : List Instr :=
  b.instrs ++ b.terminator.toList

/-- A function at a position of its module, as calls build it. -/
structure Function.WellFormed (position : Nat) (f : Function) : Prop where
  index_eq : f.index = position
  name_ne : f.name ≠ ""
  params_valued : ∀ p ∈ f.params, p.type.isVoid = false
  labels_ne : ∀ b ∈ f.blocks, b.label ≠ ""
  labels_nodup : (f.blocks.map Block.label).Nodup
  parent_eq : ∀ b ∈ f.blocks, b.parent = position
  contents_parent_eq : ∀ b ∈ f.blocks, ∀ i ∈ b.contents, i.parent = position

/-- The code of all modules, as calls build it. -/
structure WellFormedCode (modules : List Module) : Prop where
  function : ∀ a f, FunctionAddr.read? a modules = some f → f.WellFormed a.functionAt
  names_nodup : ∀ m ∈ modules, (m.functions.map Function.name).Nodup

/-- A builder whose cursor is where calls put it. -/
structure Builder.WellPlaced (modules : List Module) (builder : Builder) : Prop where
  home_lt : builder.home < modules.length
  function : ∀ a, builder.cursor.function = some a →
    a.moduleAt = builder.home ∧ ∃ f, a.read? modules = some f
  block : ∀ a, builder.cursor.block = some a →
    builder.cursor.function = some a.function ∧
      ∃ b, a.read? modules = some b ∧ builder.cursor.anchor ≤ b.size
  anchor_eq_zero : builder.cursor.block = none → builder.cursor.anchor = 0

/-- A world as calls build it. -/
structure World.WellFormed (w : World) : Prop where
  code : WellFormedCode w.modules
  builder : ∀ builder ∈ w.builders, builder.WellPlaced w.modules

section Lists

variable {α β : Type}

/-- What is in a list after a change at a position was in it before, or is changed. -/
theorem mem_of_mem_modify
    {l : List α} {k : Nat} {change : α → α} {x : α}
    (hx : x ∈ l.modify k change) :
    x ∈ l ∨ ∃ y, l[k]? = some y ∧ x = change y := by
  obtain ⟨j, hj⟩ := List.mem_iff_getElem?.mp hx
  by_cases hk : k = j
  · subst hk
    rw [List.getElem?_modify_eq, Option.map_eq_map, Option.map_eq_some_iff] at hj
    obtain ⟨y, hy, rfl⟩ := hj
    exact Or.inr ⟨y, hy, rfl⟩
  · rw [List.getElem?_modify_ne _ _ hk] at hj
    exact Or.inl (List.mem_of_getElem? hj)

/-- A change that keeps a property of elements keeps the list of these properties. -/
theorem map_modify_of_eq
    {f : α → β} {change : α → α}
    (hchange : ∀ x, f (change x) = f x)
    (l : List α)
    (k : Nat) :
    (l.modify k change).map f = l.map f := by
  apply List.ext_getElem?
  intro j
  by_cases hk : k = j
  · subst hk
    simp [Function.comp_def, hchange]
  · simp [hk]

/-- A list without repetitions has none with a new element at its end. -/
theorem nodup_map_concat
    {f : α → β} {l : List α} {x : α}
    (hl : (l.map f).Nodup)
    (hx : ∀ y ∈ l, f y ≠ f x) :
    ((l ++ [x]).map f).Nodup := by
  rw [List.map_append, List.nodup_append]
  refine ⟨hl, by simp, ?_⟩
  simpa using hx

end Lists

section Functions

namespace Function

theorem wellFormed_declare
    {name : String} {params : List (String × Ty)}
    (hname : name ≠ "")
    (hparams : ∀ p ∈ params, p.2.isVoid = false)
    (position : Nat)
    (result : Ty) :
    (declare name position result params).WellFormed position where
  index_eq := rfl
  name_ne := hname
  params_valued := by
    intro p hp
    obtain ⟨⟨q, id⟩, hq, rfl⟩ := List.mem_map.mp hp
    exact hparams q (List.mem_of_getElem? (List.mem_zipIdx_iff_getElem?.mp hq))
  labels_ne := by simp [declare]
  labels_nodup := by simp [declare]
  parent_eq := by simp [declare]
  contents_parent_eq := by simp [declare]

theorem WellFormed.addBlock
    {position : Nat} {f : Function} {label : String}
    (hf : f.WellFormed position)
    (hlabel : label ≠ "")
    (hnew : ∀ b ∈ f.blocks, b.label ≠ label) :
    (f.addBlock label).WellFormed position where
  index_eq := hf.index_eq
  name_ne := hf.name_ne
  params_valued := hf.params_valued
  labels_ne := by
    intro b hb
    rcases List.mem_append.mp hb with hb | hb
    · exact hf.labels_ne b hb
    · cases List.mem_singleton.mp hb
      exact hlabel
  labels_nodup := nodup_map_concat hf.labels_nodup hnew
  parent_eq := by
    intro b hb
    rcases List.mem_append.mp hb with hb | hb
    · exact hf.parent_eq b hb
    · cases List.mem_singleton.mp hb
      exact hf.index_eq
  contents_parent_eq := by
    intro b hb i hi
    rcases List.mem_append.mp hb with hb | hb
    · exact hf.contents_parent_eq b hb i hi
    · cases List.mem_singleton.mp hb
      simp [Block.contents, newBlock] at hi

/-- A block of a function after an instruction was placed in it. -/
theorem mem_blocks_place
    {f : Function} {block : Nat} {i : Instr} {change : Block → Block} {b' : Block}
    (hb' : b' ∈ (f.place block i change).blocks) :
    b' ∈ f.blocks ∨ ∃ b, f.blocks[block]? = some b ∧ b' = change b :=
  mem_of_mem_modify hb'

/--
A function stays well-formed when an instruction of it is placed in a block, if nothing else in
the block changes.
-/
theorem WellFormed.place
    {position : Nat} {f : Function} {block : Nat} {i : Instr} {change : Block → Block}
    (hf : f.WellFormed position)
    (hlabel : ∀ b, (change b).label = b.label)
    (hparent : ∀ b, (change b).parent = b.parent)
    (hcontents : ∀ b, ∀ i' ∈ (change b).contents, i' ∈ b.contents ∨ i' = i)
    (hi : i.parent = position) :
    (f.place block i change).WellFormed position where
  index_eq := hf.index_eq
  name_ne := hf.name_ne
  params_valued := hf.params_valued
  labels_ne := by
    intro b' hb'
    rcases mem_blocks_place hb' with hb' | ⟨b, hb, rfl⟩
    · exact hf.labels_ne b' hb'
    · rw [hlabel]
      exact hf.labels_ne b (List.mem_of_getElem? hb)
  labels_nodup := by
    have hmap : (f.place block i change).blocks.map Block.label = f.blocks.map Block.label :=
      map_modify_of_eq hlabel _ _
    rw [hmap]
    exact hf.labels_nodup
  parent_eq := by
    intro b' hb'
    rcases mem_blocks_place hb' with hb' | ⟨b, hb, rfl⟩
    · exact hf.parent_eq b' hb'
    · rw [hparent]
      exact hf.parent_eq b (List.mem_of_getElem? hb)
  contents_parent_eq := by
    intro b' hb' i' hi'
    rcases mem_blocks_place hb' with hb' | ⟨b, hb, rfl⟩
    · exact hf.contents_parent_eq b' hb' i' hi'
    · rcases hcontents b i' hi' with hi' | rfl
      · exact hf.contents_parent_eq b (List.mem_of_getElem? hb) i' hi'
      · exact hi

end Function

/-- Putting an instruction into a block adds it to the sequence. -/
theorem Block.instrs_insert_perm
    (b : Block)
    (position : Nat)
    (i : Instr) :
    (b.insert position i).instrs.Perm (i :: b.instrs) := by
  have hperm : (b.instrs.take position ++ i :: b.instrs.drop position).Perm
      (i :: (b.instrs.take position ++ b.instrs.drop position)) :=
    List.perm_middle
  rw [List.take_append_drop] at hperm
  exact hperm

theorem Block.contents_insert_perm
    (b : Block)
    (position : Nat)
    (i : Instr) :
    (b.insert position i).contents.Perm (i :: b.contents) :=
  (b.instrs_insert_perm position i).append_right _

/-- Closing an open block adds the instruction that ends it to the contents. -/
theorem Block.contents_close_perm
    {b : Block}
    (hopen : b.terminator = none)
    (i : Instr) :
    (b.close i).contents.Perm (i :: b.contents) := by
  simp only [contents, close, hopen, Option.toList_none, Option.toList_some, List.append_nil]
  exact List.perm_append_singleton _ _

end Functions

section Modules

variable {modules modules' : List Module} {e : Option Event}

/-- Names stay distinct when a function of a module keeps its name. -/
theorem names_nodup_modify
    {a : FunctionAddr} {change : Function → Function}
    (hname : ∀ f, (change f).name = f.name)
    (hmodules : ∀ m ∈ modules, (m.functions.map Function.name).Nodup) :
    ∀ m ∈ a.modify change modules, (m.functions.map Function.name).Nodup := by
  intro m' hm'
  rcases mem_of_mem_modify hm' with hm' | ⟨m, hm, rfl⟩
  · exact hmodules m' hm'
  · have hmap : (m.modifyFunction a.functionAt change).functions.map Function.name =
        m.functions.map Function.name :=
      map_modify_of_eq hname _ _
    rw [hmap]
    exact hmodules m (List.mem_of_getElem? hm)

/-- Additions keep code well-formed. -/
theorem Addition.wellFormedCode
    (hadd : Addition modules e modules')
    (hcode : WellFormedCode modules) :
    WellFormedCode modules' where
  function := by
    refine hadd.forall_function ?_ ?_ ?_ ?_ hcode.function
    · intro name position result params hname hparams
      exact Function.wellFormed_declare hname hparams position result
    · intro position f label hf hlabel hnew
      exact hf.addBlock hlabel hnew
    · intro position f block b at_ i e hf hb hopen hdraft hid hparent
      refine hf.place (fun _ => rfl) (fun _ => rfl) ?_ hparent
      intro b i' hi'
      have hmem := (b.contents_insert_perm at_ i).mem_iff.mp hi'
      exact (List.mem_cons.mp hmem).symm
    · intro position f block b i t label hf hb hopen hdraft hid hparent
      refine hf.place (fun _ => rfl) (fun _ => rfl) ?_ hparent
      intro b i' hi'
      rcases List.mem_append.mp hi' with hi' | hi'
      · exact Or.inl (List.mem_append_left _ hi')
      · exact Or.inr (List.mem_singleton.mp hi')
  names_nodup := by
    cases hadd with
    | nothing =>
        exact hcode.names_nodup
    | @function d m target hm hend hname hnew hparams =>
        intro m' hm'
        rcases mem_of_mem_modify hm' with hm' | ⟨m'', hread, rfl⟩
        · exact hcode.names_nodup m' hm'
        · rw [hm] at hread
          cases hread
          exact nodup_map_concat (hcode.names_nodup m (List.mem_of_getElem? hm)) hnew
    | block hf hlabel hnew =>
        exact names_nodup_modify (fun _ => rfl) hcode.names_nodup
    | instr hf hb hopen hclosing hdraft hreply =>
        exact names_nodup_modify (fun _ => rfl) hcode.names_nodup
    | terminator hf hb hopen hclosing hdraft hreply =>
        exact names_nodup_modify (fun _ => rfl) hcode.names_nodup

/-- A builder stays well placed when the code grows. -/
theorem Builder.WellPlaced.mono
    {builder : Builder}
    (hbuilder : builder.WellPlaced modules)
    (hgrows : Grows modules modules') :
    builder.WellPlaced modules' where
  home_lt := hgrows.length_eq ▸ hbuilder.home_lt
  function := by
    intro a ha
    obtain ⟨hhome, f, hf⟩ := hbuilder.function a ha
    obtain ⟨f', hf', _⟩ := hgrows.function a f hf
    exact ⟨hhome, f', hf'⟩
  block := by
    intro a ha
    obtain ⟨hfunction, b, hb, hanchor⟩ := hbuilder.block a ha
    obtain ⟨b', hb', hblock⟩ := hgrows.block hb
    exact ⟨hfunction, b', hb', Nat.le_trans hanchor hblock.size_le⟩
  anchor_eq_zero := hbuilder.anchor_eq_zero

/-- A builder stays well placed when its anchor moves in its block. -/
theorem Builder.WellPlaced.moveAnchor
    {builder : Builder} {a : BlockAddr} {b : Block} {anchor : Nat}
    (hbuilder : builder.WellPlaced modules)
    (hblock : builder.cursor.block = some a)
    (hread : a.read? modules = some b)
    (hanchor : anchor ≤ b.size) :
    { builder with cursor := { builder.cursor with anchor } }.WellPlaced modules where
  home_lt := hbuilder.home_lt
  function := hbuilder.function
  block := by
    intro a' ha'
    have hfunction := (hbuilder.block a' ha').1
    simp only [hblock, Option.some.injEq] at ha'
    subst ha'
    exact ⟨hfunction, b, hread, hanchor⟩
  anchor_eq_zero := by
    intro hnone
    simp [hblock] at hnone

/-- An instruction is placed in the block at an address and nowhere else. -/
theorem read?_place
    (a a' : BlockAddr)
    (i : Instr)
    (change : Block → Block) :
    a'.read? (a.function.modify (fun f => f.place a.blockAt i change) modules) =
      if a' = a then (a.read? modules).map change else a'.read? modules := by
  rw [BlockAddr.read?_eq, FunctionAddr.read?_modify]
  by_cases haddr : a' = a
  · subst haddr
    rw [if_pos rfl, if_pos rfl, BlockAddr.read?_eq]
    cases a'.function.read? modules with
    | none =>
        rfl
    | some f =>
        simp
  · rw [if_neg haddr]
    split
    · rename_i hfunction
      have hblock : a.blockAt ≠ a'.blockAt := by
        intro hblock
        obtain ⟨m, f, j⟩ := a
        obtain ⟨m', f', j'⟩ := a'
        cases hfunction
        cases hblock
        exact haddr rfl
      rw [BlockAddr.read?_eq, hfunction]
      cases a.function.read? modules with
      | none =>
          rfl
      | some f =>
          simp [hblock]
    · rw [BlockAddr.read?_eq]

end Modules

end ThreeAddress
