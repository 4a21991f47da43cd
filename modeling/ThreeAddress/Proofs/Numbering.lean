import ThreeAddress.Proofs.Reachable

/-!
# The numbers of a function

A function gives out its numbers from zero on, one to each parameter and one to each instruction
that is placed in it.  In a reachable world every function is numbered (`Reachable.numbered`):
parameters, instructions and terminators have all the numbers given out and no number twice, the
name that was given with a number is the name of what has it, and the instruction that ends
a block has the greatest number in the block.
-/

namespace ThreeAddress

/-- The numbers of the parameters, the instructions and the terminators of a function. -/
def Function.ids (f : Function) : List Nat :=
  f.params.map Param.id ++ f.blocks.flatMap fun b => b.contents.map (·.id)

/-- A function whose numbers and names are as calls give them out. -/
structure Function.Numbered (f : Function) : Prop where
  params_ids : f.params.map Param.id = List.range f.params.length
  ids_perm : f.ids.Perm (List.range f.nextId)
  id_lt_terminator : ∀ b ∈ f.blocks, ∀ t, b.terminator = some t →
    ∀ i ∈ b.instrs, i.id < t.id
  nameOf_param : ∀ p ∈ f.params, f.nameOf p.id = p.name
  nameOf_instr : ∀ b ∈ f.blocks, ∀ i ∈ b.contents, f.nameOf i.id = i.name

section Lists

variable {α β : Type}

/-- A change that adds one part to an element adds it to the parts of the list. -/
theorem flatMap_modify_perm
    (parts : α → List β)
    {change : α → α} {l : List α} {k : Nat} {a : α} {x : β}
    (ha : l[k]? = some a)
    (hchange : (parts (change a)).Perm (x :: parts a)) :
    ((l.modify k change).flatMap parts).Perm (x :: l.flatMap parts) := by
  induction l generalizing k with
  | nil =>
      simp at ha
  | cons first rest ih =>
      cases k with
      | zero =>
          cases ha
          simp only [List.modify_zero_cons, List.flatMap_cons]
          exact hchange.append_right _
      | succ k =>
          have hperm := ih (k := k) ha
          simp only [List.modify_succ_cons, List.flatMap_cons]
          exact (hperm.append_left _).trans List.perm_middle

/-- Where keys differ, an element is the only one with its key. -/
theorem filter_key_eq_singleton
    [BEq β] [LawfulBEq β]
    {key : α → β} {l : List α} {x : α}
    (hl : (l.map key).Nodup)
    (hx : x ∈ l) :
    l.filter (fun y => key y == key x) = [x] := by
  induction l with
  | nil =>
      cases hx
  | cons first rest ih =>
      obtain ⟨hfirst, hrest⟩ := List.nodup_cons.mp hl
      rcases List.mem_cons.mp hx with rfl | hx
      · have hnone : rest.filter (fun y => key y == key x) = [] := by
          rw [List.filter_eq_nil_iff]
          intro y hy hkey
          exact hfirst (List.mem_map.mpr ⟨y, hy, by simpa using hkey⟩)
        simp [hnone]
      · have hne : key first ≠ key x := by
          intro hkey
          exact hfirst (List.mem_map.mpr ⟨x, hx, hkey.symm⟩)
        simp [hne, ih hrest hx]

end Lists

namespace Function

section Numbers

variable {f : Function}

theorem Numbered.ids_nodup
    (hf : f.Numbered) :
    f.ids.Nodup :=
  hf.ids_perm.nodup_iff.mpr List.nodup_range

/-- The numbers in a function are those given out. -/
theorem Numbered.mem_ids_iff
    (hf : f.Numbered)
    {id : Nat} :
    id ∈ f.ids ↔ id < f.nextId :=
  hf.ids_perm.mem_iff.trans List.mem_range

theorem mem_ids_of_contents
    {b : Block} {i : Instr}
    (hb : b ∈ f.blocks)
    (hi : i ∈ b.contents) :
    i.id ∈ f.ids :=
  List.mem_append_right _ (List.mem_flatMap.mpr ⟨b, hb, List.mem_map_of_mem hi⟩)

theorem mem_ids_of_param
    {p : Param}
    (hp : p ∈ f.params) :
    p.id ∈ f.ids :=
  List.mem_append_left _ (List.mem_map_of_mem hp)

/-- An instruction is the only one of its function with its number. -/
theorem Numbered.filter_id_eq_singleton
    (hf : f.Numbered)
    {b : Block} {i : Instr}
    (hb : b ∈ f.blocks)
    (hi : i ∈ b.contents) :
    (f.blocks.flatMap Block.contents).filter (fun j => j.id == i.id) = [i] := by
  have hnodup : ((f.blocks.flatMap Block.contents).map (·.id)).Nodup := by
    rw [List.map_flatMap]
    exact (List.nodup_append.mp hf.ids_nodup).2.1
  exact filter_key_eq_singleton hnodup (List.mem_flatMap.mpr ⟨b, hb, hi⟩)

/-- The number of a placed instruction joins the numbers of the function. -/
theorem ids_place_perm
    {block : Nat} {b : Block} {i : Instr} {change : Block → Block}
    (hb : f.blocks[block]? = some b)
    (hcontents : (change b).contents.Perm (i :: b.contents)) :
    (f.place block i change).ids.Perm (i.id :: f.ids) := by
  have hparts := flatMap_modify_perm (fun b => b.contents.map (·.id)) hb
    (hcontents.map _)
  exact (hparts.append_left _).trans List.perm_middle

/-- A name that was given stays when another one is. -/
theorem nameOf_place_of_lt
    {block : Nat} {i : Instr} {change : Block → Block} {id : Nat}
    (hid : id < f.nextId) :
    (f.place block i change).nameOf id = f.nameOf id := by
  simp only [nameOf, place_names, List.getD_eq_getElem?_getD]
  rw [List.getElem?_append_left hid]

theorem nameOf_place_nextId
    (f : Function)
    (block : Nat)
    (i : Instr)
    (change : Block → Block) :
    (f.place block i change).nameOf f.nextId = i.name := by
  simp [nameOf, nextId, List.getD_eq_getElem?_getD]

end Numbers

section Steps

/-- The parameters of a declared function take the first numbers. -/
theorem params_ids_declare
    (name : String)
    (position : Nat)
    (result : Ty)
    (params : List (String × Ty)) :
    (declare name position result params).params.map Param.id = List.range params.length := by
  have hids : (params.zipIdx.map fun q => (⟨q.1.1, q.1.2, q.2⟩ : Param)).map Param.id =
      params.zipIdx.map Prod.snd := by
    rw [List.map_map]
    rfl
  rw [declare, hids, List.zipIdx_map_snd, List.range_eq_range']

theorem numbered_declare
    (name : String)
    (position : Nat)
    (result : Ty)
    (params : List (String × Ty)) :
    (declare name position result params).Numbered where
  params_ids := by
    rw [params_ids_declare]
    simp [declare]
  ids_perm := by
    have hids : (declare name position result params).ids = List.range params.length := by
      rw [ids, params_ids_declare]
      simp [declare]
    rw [hids]
    simp [declare, nextId]
  id_lt_terminator := by simp [declare]
  nameOf_param := by
    intro p hp
    obtain ⟨⟨q, id⟩, hq, rfl⟩ := List.mem_map.mp hp
    have hget := List.mem_zipIdx_iff_getElem?.mp hq
    simp [declare, nameOf, List.getD_eq_getElem?_getD, hget]
  nameOf_instr := by simp [declare]

theorem Numbered.addBlock
    {f : Function}
    (hf : f.Numbered)
    (label : String) :
    (f.addBlock label).Numbered where
  params_ids := hf.params_ids
  ids_perm := by
    have hids : (f.addBlock label).ids = f.ids := by
      simp [ids, Function.addBlock, newBlock, Block.contents]
    rw [hids]
    exact hf.ids_perm
  id_lt_terminator := by
    intro b hb
    rcases List.mem_append.mp hb with hb | hb
    · exact hf.id_lt_terminator b hb
    · cases List.mem_singleton.mp hb
      simp [newBlock]
  nameOf_param := hf.nameOf_param
  nameOf_instr := by
    intro b hb
    rcases List.mem_append.mp hb with hb | hb
    · exact hf.nameOf_instr b hb
    · cases List.mem_singleton.mp hb
      simp [newBlock, Block.contents]

/--
A function stays numbered when an instruction with the next number is added to a block, if
a block is only ever ended by that instruction.
-/
theorem Numbered.place
    {f : Function} {block : Nat} {b : Block} {i : Instr} {change : Block → Block}
    (hf : f.Numbered)
    (hb : f.blocks[block]? = some b)
    (hid : i.id = f.nextId)
    (hcontents : (change b).contents.Perm (i :: b.contents))
    (hclose : ∀ t, (change b).terminator = some t → t = i ∧ (change b).instrs = b.instrs) :
    (f.place block i change).Numbered where
  params_ids := hf.params_ids
  ids_perm := by
    have hids := ids_place_perm hb hcontents
    rw [hid] at hids
    rw [place_nextId, List.range_succ]
    exact hids.trans ((hf.ids_perm.cons _).trans (List.perm_append_singleton _ _).symm)
  id_lt_terminator := by
    intro b' hb' t ht j hj
    rcases mem_blocks_place hb' with hb' | ⟨b'', hb'', rfl⟩
    · exact hf.id_lt_terminator b' hb' t ht j hj
    · rw [hb] at hb''
      cases hb''
      obtain ⟨rfl, hinstrs⟩ := hclose t ht
      rw [hinstrs] at hj
      rw [hid]
      exact hf.mem_ids_iff.mp
        (mem_ids_of_contents (List.mem_of_getElem? hb) (List.mem_append_left _ hj))
  nameOf_param := by
    intro p hp
    rw [nameOf_place_of_lt (hf.mem_ids_iff.mp (mem_ids_of_param hp))]
    exact hf.nameOf_param p hp
  nameOf_instr := by
    have hold : ∀ b' ∈ f.blocks, ∀ j ∈ b'.contents,
        (f.place block i change).nameOf j.id = j.name := by
      intro b' hb' j hj
      rw [nameOf_place_of_lt (hf.mem_ids_iff.mp (mem_ids_of_contents hb' hj))]
      exact hf.nameOf_instr b' hb' j hj
    intro b' hb' j hj
    rcases mem_blocks_place hb' with hb' | ⟨b'', hb'', rfl⟩
    · exact hold b' hb' j hj
    · rw [hb] at hb''
      cases hb''
      rcases List.mem_cons.mp (hcontents.mem_iff.mp hj) with rfl | hj
      · rw [hid, nameOf_place_nextId]
      · exact hold b (List.mem_of_getElem? hb) j hj

end Steps

end Function

namespace World

/-- In a reachable world every function is numbered. -/
theorem Reachable.numbered
    {w : World}
    (hw : w.Reachable) :
    ∀ a f, FunctionAddr.read? a w.modules = some f → f.Numbered := by
  refine hw.forall_function (P := fun _ f => f.Numbered) ?_ ?_ ?_ ?_
  · intro name position result params _ _
    exact Function.numbered_declare name position result params
  · intro position f label hf _ _
    exact hf.addBlock label
  · intro position f block b at_ i e hf hb hopen hdraft hid hparent
    refine hf.place hb hid (b.contents_insert_perm at_ i) ?_
    intro t ht
    rw [show (b.insert at_ i).terminator = b.terminator from rfl, hopen] at ht
    cases ht
  · intro position f block b i t label hf hb hopen hdraft hid hparent
    refine hf.place hb hid (Block.contents_close_perm hopen i) ?_
    rintro _ ⟨⟩
    exact ⟨rfl, rfl⟩

end World

end ThreeAddress
