import ThreeAddress.Proofs.Additions

/-!
# Code only grows

Every addition leaves what is there in its place: functions and blocks keep their addresses,
their names and their labels, parameters and given names stay, and instructions stay in their
order while others are put between them.  A closed block does not change at all.

Growth is a preorder on the code of all modules, so what it says about one addition it says
about any number of them.
-/

namespace ThreeAddress

/-- How a block may change. -/
structure Block.Grows (b b' : Block) : Prop where
  label_eq : b'.label = b.label
  parent_eq : b'.parent = b.parent
  instrs_sublist : b.instrs.Sublist b'.instrs
  eq_of_closed : b.isClosed = true → b' = b

/-- How a function may change. -/
structure Function.Grows (f f' : Function) : Prop where
  name_eq : f'.name = f.name
  index_eq : f'.index = f.index
  result_eq : f'.result = f.result
  params_eq : f'.params = f.params
  names_prefix : f.names <+: f'.names
  block : ∀ (j : Nat) (b : Block), f.blocks[j]? = some b →
    ∃ b', f'.blocks[j]? = some b' ∧ b.Grows b'

/-- How the code of all modules may change. -/
structure Grows (modules modules' : List Module) : Prop where
  length_eq : modules'.length = modules.length
  function : ∀ a f, FunctionAddr.read? a modules = some f →
    ∃ f', FunctionAddr.read? a modules' = some f' ∧ f.Grows f'

section Preorder

theorem Block.Grows.refl
    (b : Block) :
    b.Grows b :=
  ⟨rfl, rfl, List.Sublist.refl _, fun _ => rfl⟩

theorem Block.Grows.trans
    {b b' b'' : Block}
    (h : b.Grows b')
    (h' : b'.Grows b'') :
    b.Grows b'' where
  label_eq := h'.label_eq.trans h.label_eq
  parent_eq := h'.parent_eq.trans h.parent_eq
  instrs_sublist := h.instrs_sublist.trans h'.instrs_sublist
  eq_of_closed hclosed := by
    have heq := h.eq_of_closed hclosed
    rw [h'.eq_of_closed (heq ▸ hclosed), heq]

theorem Block.Grows.size_le
    {b b' : Block}
    (h : b.Grows b') :
    b.size ≤ b'.size :=
  h.instrs_sublist.length_le

theorem Function.Grows.refl
    (f : Function) :
    f.Grows f :=
  ⟨rfl, rfl, rfl, rfl, List.prefix_refl _, fun _ b hb => ⟨b, hb, .refl b⟩⟩

theorem Function.Grows.trans
    {f f' f'' : Function}
    (h : f.Grows f')
    (h' : f'.Grows f'') :
    f.Grows f'' where
  name_eq := h'.name_eq.trans h.name_eq
  index_eq := h'.index_eq.trans h.index_eq
  result_eq := h'.result_eq.trans h.result_eq
  params_eq := h'.params_eq.trans h.params_eq
  names_prefix := h.names_prefix.trans h'.names_prefix
  block j b hb := by
    obtain ⟨b', hb', hgrows⟩ := h.block j b hb
    obtain ⟨b'', hb'', hgrows'⟩ := h'.block j b' hb'
    exact ⟨b'', hb'', hgrows.trans hgrows'⟩

theorem Grows.refl
    (modules : List Module) :
    Grows modules modules :=
  ⟨rfl, fun _ f hf => ⟨f, hf, .refl f⟩⟩

theorem Grows.trans
    {modules modules' modules'' : List Module}
    (h : Grows modules modules')
    (h' : Grows modules' modules'') :
    Grows modules modules'' where
  length_eq := h'.length_eq.trans h.length_eq
  function a f hf := by
    obtain ⟨f', hf', hgrows⟩ := h.function a f hf
    obtain ⟨f'', hf'', hgrows'⟩ := h'.function a f' hf'
    exact ⟨f'', hf'', hgrows.trans hgrows'⟩

/-- A block stays at its address and grows there. -/
theorem Grows.block
    {modules modules' : List Module} {a : BlockAddr} {b : Block}
    (h : Grows modules modules')
    (hb : a.read? modules = some b) :
    ∃ b', a.read? modules' = some b' ∧ b.Grows b' := by
  rw [BlockAddr.read?_eq, Option.bind_eq_some_iff] at hb
  obtain ⟨f, hf, hb⟩ := hb
  obtain ⟨f', hf', hgrows⟩ := h.function _ f hf
  obtain ⟨b', hb', hblock⟩ := hgrows.block _ b hb
  refine ⟨b', ?_, hblock⟩
  rw [BlockAddr.read?_eq, hf']
  exact hb'

end Preorder

section Steps

/-- An open block grows when an instruction is put into it. -/
theorem Block.grows_insert
    {b : Block}
    (hopen : b.terminator = none)
    (position : Nat)
    (i : Instr) :
    b.Grows (b.insert position i) where
  label_eq := rfl
  parent_eq := rfl
  instrs_sublist := by
    have hsub : (b.instrs.take position ++ b.instrs.drop position).Sublist
        (b.instrs.take position ++ i :: b.instrs.drop position) :=
      (List.Sublist.refl _).append (List.sublist_cons_self _ _)
    rwa [List.take_append_drop] at hsub
  eq_of_closed hclosed := by
    simp [isClosed, hopen] at hclosed

/-- An open block grows when it is closed. -/
theorem Block.grows_close
    {b : Block}
    (hopen : b.terminator = none)
    (i : Instr) :
    b.Grows (b.close i) where
  label_eq := rfl
  parent_eq := rfl
  instrs_sublist := List.Sublist.refl _
  eq_of_closed hclosed := by
    simp [isClosed, hopen] at hclosed

theorem Function.grows_addBlock
    (f : Function)
    (label : String) :
    f.Grows (f.addBlock label) where
  name_eq := rfl
  index_eq := rfl
  result_eq := rfl
  params_eq := rfl
  names_prefix := List.prefix_refl _
  block j b hb := by
    obtain ⟨hlt, hget⟩ := List.getElem?_eq_some_iff.mp hb
    refine ⟨b, ?_, .refl b⟩
    simp only [addBlock, List.getElem?_append_left hlt, hb]

/-- A function grows when one of its blocks does and a number is given out. -/
theorem Function.grows_place
    {f : Function} {block : Nat} {b : Block} {change : Block → Block}
    (hb : f.blocks[block]? = some b)
    (hgrows : b.Grows (change b))
    (i : Instr) :
    f.Grows (f.place block i change) where
  name_eq := rfl
  index_eq := rfl
  result_eq := rfl
  params_eq := rfl
  names_prefix := List.prefix_append _ _
  block j b' hb' := by
    by_cases hj : block = j
    · subst hj
      rw [hb] at hb'
      cases hb'
      exact ⟨change b, by simp [hb], hgrows⟩
    · exact ⟨b', by simp [hj, hb'], .refl b'⟩

/-- Code grows when a function in it does. -/
theorem grows_modify
    {modules : List Module} {a : FunctionAddr} {f : Function} {change : Function → Function}
    (hf : a.read? modules = some f)
    (hgrows : f.Grows (change f)) :
    Grows modules (a.modify change modules) where
  length_eq := FunctionAddr.length_modify ..
  function a' f' hf' := by
    rw [FunctionAddr.read?_modify]
    by_cases haddr : a' = a
    · subst haddr
      rw [hf] at hf'
      cases hf'
      exact ⟨change f, by simp [hf], hgrows⟩
    · exact ⟨f', by simp [haddr, hf'], .refl f'⟩

/-- Additions only let code grow. -/
theorem Addition.grows
    {modules modules' : List Module} {e : Option Event}
    (hadd : Addition modules e modules') :
    Grows modules modules' := by
  cases hadd with
  | nothing =>
      exact .refl _
  | @function d m target hm hend hname hnew hparams =>
      refine ⟨List.length_modify .., ?_⟩
      intro a f hf
      have hne : a ≠ ⟨d.function.moduleAt, m.functions.length⟩ := by
        rintro rfl
        rw [read?_length hm] at hf
        cases hf
      exact ⟨f, by rw [read?_addFunction hm, if_neg hne, hf], .refl f⟩
  | block hf hlabel hnew =>
      exact grows_modify hf (Function.grows_addBlock _ _)
  | instr hf hb hopen hclosing hdraft hreply =>
      exact grows_modify hf (Function.grows_place hb (Block.grows_insert hopen _ _) _)
  | terminator hf hb hopen hclosing hdraft hreply =>
      exact grows_modify hf (Function.grows_place hb (Block.grows_close hopen _) _)

end Steps

end ThreeAddress
