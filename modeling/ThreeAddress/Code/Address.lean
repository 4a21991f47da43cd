import ThreeAddress.Code.Module

/-!
# Addresses

Functions and blocks of several modules are named by positions: that of the module, that of
the function in it, and that of the block in the function.  Reading an address that names
nothing gives nothing, and a change at such an address changes nothing.
-/

namespace ThreeAddress

/-- Where a function is. -/
structure FunctionAddr where
  moduleAt : Nat
  functionAt : Nat
deriving DecidableEq, Repr

/-- Where a block is. -/
structure BlockAddr where
  moduleAt : Nat
  functionAt : Nat
  blockAt : Nat
deriving DecidableEq, Repr

namespace FunctionAddr

/-- The address of a block of a function. -/
def block (a : FunctionAddr) (blockAt : Nat) : BlockAddr :=
  ⟨a.moduleAt, a.functionAt, blockAt⟩

/-- The function at an address. -/
def read? (a : FunctionAddr) (modules : List Module) : Option Function :=
  modules[a.moduleAt]? >>= fun m => m.functions[a.functionAt]?

/-- Change the function at an address. -/
def modify (a : FunctionAddr) (change : Function → Function) (modules : List Module) :
    List Module :=
  modules.modify a.moduleAt fun m => m.modifyFunction a.functionAt change

@[simp]
theorem length_modify (a : FunctionAddr) (change : Function → Function)
    (modules : List Module) : (a.modify change modules).length = modules.length :=
  List.length_modify ..

/-- A change is seen at its address and nowhere else. -/
theorem read?_modify (a a' : FunctionAddr) (change : Function → Function)
    (modules : List Module) :
    a'.read? (a.modify change modules) =
      if a' = a then (a.read? modules).map change else a'.read? modules := by
  obtain ⟨m, f⟩ := a
  obtain ⟨m', f'⟩ := a'
  by_cases hm : m = m'
  · subst hm
    by_cases hf : f = f'
    · subst hf
      cases h : modules[m]? <;> simp [read?, modify, Module.modifyFunction, h]
    · cases h : modules[m]? <;>
        simp [read?, modify, Module.modifyFunction, h, hf, Ne.symm hf]
  · simp [read?, modify, hm, Ne.symm hm]

/-- A change where nothing is changes nothing. -/
theorem modify_eq_self {a : FunctionAddr} {modules : List Module}
    (ha : a.read? modules = none) (change : Function → Function) :
    a.modify change modules = modules := by
  apply List.ext_getElem?
  intro j
  by_cases hj : a.moduleAt = j
  · subst hj
    cases hm : modules[a.moduleAt]? with
    | none => simp [modify, hm]
    | some m =>
      have hlen : m.functions.length ≤ a.functionAt := by simpa [read?, hm] using ha
      simp [modify, hm, Module.modifyFunction, List.modify_eq_self hlen]
  · simp [modify, hj]

/-- Two changes at one address are one change. -/
theorem modify_modify (a : FunctionAddr) (first second : Function → Function)
    (modules : List Module) :
    a.modify second (a.modify first modules) =
      a.modify (fun f => second (first f)) modules := by
  simp only [modify, List.modify_modify_eq]
  congr 1
  funext m
  simp only [Function.comp_apply, Module.modifyFunction, List.modify_modify_eq]
  rfl

end FunctionAddr

namespace BlockAddr

/-- The address of the function that a block is in. -/
def function (a : BlockAddr) : FunctionAddr := ⟨a.moduleAt, a.functionAt⟩

/-- The block at an address. -/
def read? (a : BlockAddr) (modules : List Module) : Option Block :=
  modules[a.moduleAt]? >>= fun m => m.block? a.functionAt a.blockAt

/-- Change the block at an address. -/
def modify (a : BlockAddr) (change : Block → Block) (modules : List Module) : List Module :=
  modules.modify a.moduleAt fun m => m.modifyBlock a.functionAt a.blockAt change

/-- A block is read in its function. -/
theorem read?_eq (a : BlockAddr) (modules : List Module) :
    a.read? modules = (a.function.read? modules).bind fun f => f.blocks[a.blockAt]? :=
  (Option.bind_assoc ..).symm

/-- A block is changed in its function. -/
theorem modify_eq (a : BlockAddr) (change : Block → Block) (modules : List Module) :
    a.modify change modules =
      a.function.modify (fun f => f.modifyBlock a.blockAt change) modules :=
  rfl

end BlockAddr
end ThreeAddress
