import ThreeAddress.Listing.Basic
import ThreeAddress.Proofs.Drafts
import ThreeAddress.Proofs.Reachable

/-!
# The layout of instructions

Each operation fixes how many operands an instruction has, how their types go with its own, and
what its predicate can be.  `Draft.LaidOut` states this for all operations; emissions and
terminations draft nothing else, whatever operands they are given, so everything placed in a
reachable world is laid out.

A listing reads operands by position.  `Listing.arguments?` is the listing of an instruction with
every such reading checked: on a laid out instruction no reading misses.
-/

namespace ThreeAddress

section Layouts

/-- The source symbols of comparisons. -/
def sourceSymbols : List String :=
  [">", "<", "==", "!=", ">=", "<="]

/-- The predicates of integer comparisons. -/
def intPredicates : List String :=
  ["eq", "ne", "sgt", "slt", "sge", "sle", "ugt", "ult", "uge", "ule"]

namespace Draft

/-- The operands of an operation, and how its type follows from theirs. -/
def OperandsFit (d : Draft) : Prop :=
  match d.op with
  | .binary _ => ∃ lhs rhs, d.operands = [lhs, rhs] ∧ lhs.type = d.type ∧ rhs.type = d.type
  | .icmp | .fcmp => ∃ lhs rhs, d.operands = [lhs, rhs] ∧ d.type = Ty.int 1
  | .cast _ => ∃ operand, d.operands = [operand]
  | .alloca =>
      (∃ type : Ty, d.type = type.pointer) ∧
        (d.operands = [] ∨ ∃ count : Value, d.operands = [count] ∧ count.Counts)
  | .load => ∃ address, d.operands = [address] ∧ d.type = address.type.pointee
  | .store => ∃ value address, d.operands = [value, address]
  | .jump => ∃ target, d.operands = [.block target]
  | .branch =>
      ∃ condition onTrue onFalse, d.operands = [condition, .block onTrue, .block onFalse]
  | .ret => d.operands.length ≤ 1

/-- The predicate of an operation; only comparisons have one, and never a source symbol. -/
def PredicateFits (d : Draft) : Prop :=
  match d.op with
  | .icmp => d.predicate ∈ intPredicates ∧ d.predicate ∉ sourceSymbols
  | .fcmp => d.predicate ∉ sourceSymbols
  | _ => d.predicate = ""

/-- A draft as its operation wants it. -/
structure LaidOut (d : Draft) : Prop where
  operands : d.OperandsFit
  predicate : d.PredicateFits
  /-- Stores and the instructions that end blocks are void and have no name. -/
  silent : d.op = .store ∨ d.op.isTerminator = true → d.type = Ty.void ∧ d.name = ""

end Draft

end Layouts

section Comparisons

/-- The predicates in the table of integer comparisons are those of the layout. -/
theorem Signedness.predicates_fit
    {sign : Signedness} {symbol predicate : String}
    (hpredicate : (symbol, predicate) ∈ sign.predicates) :
    predicate ∈ intPredicates ∧ predicate ∉ sourceSymbols := by
  have htable : ∀ p ∈ sign.predicates, p.2 ∈ intPredicates ∧ p.2 ∉ sourceSymbols := by
    cases sign <;> decide
  exact htable _ hpredicate

/-- A floating-point comparison by an unknown symbol keeps it, so it keeps no source symbol. -/
theorem Orderedness.Records.fits
    {order : Orderedness} {symbol predicate : String}
    (hpredicate : order.Records symbol predicate) :
    predicate ∉ sourceSymbols := by
  cases hpredicate with
  | known hpredicate =>
      have htable : ∀ p ∈ order.predicates, p.2 ∉ sourceSymbols := by
        cases order <;> decide
      exact htable _ hpredicate
  | unknown hsymbol =>
      have hsymbols : order.predicates.map Prod.fst = sourceSymbols := by
        cases order <;> rfl
      intro hmem
      rw [← hsymbols] at hmem
      obtain ⟨p, hp, rfl⟩ := List.mem_map.mp hmem
      exact hsymbol p hp rfl

end Comparisons

section Drafting

/-- The count of an allocation is left out or a single value that counts. -/
theorem AllocaCount.Recorded.fits
    {count : AllocaCount Value} {operands : List Value}
    (hcount : count.Recorded operands) :
    operands = [] ∨ ∃ v : Value, operands = [v] ∧ v.Counts := by
  cases hcount with
  | single =>
      exact Or.inl rfl
  | literal hpositive hbound =>
      exact Or.inr ⟨_, rfl, .int rfl hpositive⟩
  | value hv =>
      exact Or.inr ⟨_, rfl, hv⟩

/-- Nothing is asked of the type and the name of an operation that may have a result. -/
theorem Draft.LaidOut.of_fit
    {d : Draft}
    (hop : d.op.isTerminator = false)
    (hstore : d.op ≠ .store)
    (hoperands : d.OperandsFit)
    (hpredicate : d.PredicateFits) :
    d.LaidOut where
  operands := hoperands
  predicate := hpredicate
  silent := by
    rintro (h | h)
    · exact absurd h hstore
    · rw [hop] at h
      cases h

/-- Emissions draft what their operations want, and nothing that ends a block. -/
theorem Emission.draft_laidOut
    {e : Emission Value} {d : Draft}
    (hd : e.draft = .ok d) :
    d.LaidOut ∧ d.op.isTerminator = false := by
  cases draft_eq_ok_iff.mp hd with
  | binary htypes =>
      exact ⟨.of_fit rfl nofun ⟨_, _, rfl, rfl, htypes.symm⟩ rfl, rfl⟩
  | intCompare hpredicate =>
      exact ⟨.of_fit rfl nofun ⟨_, _, rfl, rfl⟩ (Signedness.predicates_fit hpredicate), rfl⟩
  | floatCompare hpredicate =>
      exact ⟨.of_fit rfl nofun ⟨_, _, rfl, rfl⟩ hpredicate.fits, rfl⟩
  | cast =>
      exact ⟨.of_fit rfl nofun ⟨_, rfl⟩ rfl, rfl⟩
  | alloca hcount =>
      exact ⟨.of_fit rfl nofun ⟨⟨_, rfl⟩, hcount.fits⟩ rfl, rfl⟩
  | load htype =>
      exact ⟨.of_fit rfl nofun ⟨_, rfl, (Ty.pointsTo_iff.mp htype).symm⟩ rfl, rfl⟩
  | store =>
      exact ⟨⟨⟨_, _, rfl⟩, rfl, fun _ => ⟨rfl, rfl⟩⟩, rfl⟩

/-- Terminations draft what their operations want, and only what ends a block. -/
theorem Termination.draft_laidOut
    (t : Termination Value BlockAddr)
    (label : BlockAddr → String) :
    (t.draft label).LaidOut ∧ (t.draft label).op.isTerminator = true := by
  cases t with
  | jump target =>
      exact ⟨⟨⟨_, rfl⟩, rfl, fun _ => ⟨rfl, rfl⟩⟩, rfl⟩
  | branch condition onTrue onFalse =>
      exact ⟨⟨⟨_, _, _, rfl⟩, rfl, fun _ => ⟨rfl, rfl⟩⟩, rfl⟩
  | ret value =>
      exact ⟨⟨by cases value <;> simp [Termination.draft, Draft.OperandsFit], rfl,
        fun _ => ⟨rfl, rfl⟩⟩, rfl⟩

end Drafting

namespace Listing

section Readings

/-- What follows the operation's word, or nothing if an operand that is read is missing. -/
def arguments? (names : Names) (d : Draft) : Option String :=
  match d.op with
  | .binary _ => do
      let lhs ← d.operands[0]?
      let rhs ← d.operands[1]?
      return " " ++ d.type.spelling ++ " " ++ operand names lhs ++ ", " ++ operand names rhs
  | .icmp | .fcmp => do
      let lhs ← d.operands[0]?
      let rhs ← d.operands[1]?
      return " " ++ d.predicate ++ " " ++ typedOperand names lhs ++ ", " ++ operand names rhs
  | .cast _ => do
      let v ← d.operands[0]?
      return " " ++ typedOperand names v ++ " to " ++ d.type.spelling
  | .load => do
      let address ← d.operands[0]?
      return " " ++ d.type.spelling ++ ", " ++ typedOperand names address
  | .store => do
      let value ← d.operands[0]?
      let address ← d.operands[1]?
      return " " ++ typedOperand names value ++ ", " ++ typedOperand names address
  -- These look whether there is an operand before they read it.
  | .alloca | .jump | .branch | .ret => arguments names d

/-- The listing of a laid out instruction reads no operand that is not there. -/
theorem arguments?_of_laidOut
    {d : Draft}
    (hd : d.LaidOut)
    (names : Names) :
    arguments? names d = some (arguments names d) := by
  obtain ⟨op, type, operands, name, predicate⟩ := d
  have hoperands := hd.operands
  cases op with
  | binary op =>
      obtain ⟨lhs, rhs, rfl, _⟩ := hoperands
      rfl
  | icmp =>
      obtain ⟨lhs, rhs, rfl, _⟩ := hoperands
      rfl
  | fcmp =>
      obtain ⟨lhs, rhs, rfl, _⟩ := hoperands
      rfl
  | cast op =>
      obtain ⟨operand, rfl⟩ := hoperands
      rfl
  | load =>
      obtain ⟨address, rfl, _⟩ := hoperands
      rfl
  | store =>
      obtain ⟨value, address, rfl⟩ := hoperands
      rfl
  | alloca | jump | branch | ret =>
      rfl

end Readings

end Listing

namespace World

variable {w : World}

theorem Reachable.laidOut
    (hw : w.Reachable)
    {a : FunctionAddr} {f : Function} {b : Block}
    (hf : a.read? w.modules = some f)
    (hb : b ∈ f.blocks) :
    (∀ i ∈ b.instrs, i.toDraft.LaidOut ∧ i.op.isTerminator = false) ∧
      ∀ t, b.terminator = some t → t.toDraft.LaidOut ∧ t.op.isTerminator = true := by
  refine hw.forall_instr
    (P := fun i => i.toDraft.LaidOut ∧ i.op.isTerminator = false)
    (Q := fun t => t.toDraft.LaidOut ∧ t.op.isTerminator = true)
    Emission.draft_laidOut ?_ a f hf b hb
  intro i t label hdraft
  rw [hdraft]
  exact t.draft_laidOut label

/-- Everything in a block of a reachable world is laid out. -/
theorem Reachable.contents_laidOut
    (hw : w.Reachable)
    {a : FunctionAddr} {f : Function}
    (hf : a.read? w.modules = some f) :
    ∀ b ∈ f.blocks, ∀ i ∈ b.contents, i.toDraft.LaidOut := by
  intro b hb i hi
  obtain ⟨hinstrs, hterminator⟩ := hw.laidOut hf hb
  rcases List.mem_append.mp hi with hi | hi
  · exact (hinstrs i hi).1
  · exact (hterminator i (Option.mem_toList.mp hi)).1

/--
Every instruction of a reachable world is as its operation wants it: what ends a block is in the
place for it and nothing else is, operands, types and predicates fit the operation, and whatever
names the temporaries are listed under, the listing finds every operand that it reads.
-/
theorem reachable_instructions_laid_out
    (hw : w.Reachable) :
    ∀ a f, FunctionAddr.read? a w.modules = some f → ∀ b ∈ f.blocks,
      (∀ i ∈ b.instrs, i.op.isTerminator = false) ∧
      (∀ t, b.terminator = some t → t.op.isTerminator = true) ∧
      ∀ i ∈ b.contents, i.toDraft.LaidOut ∧
        ∀ names, Listing.arguments? names i.toDraft = some (Listing.arguments names i.toDraft) := by
  intro a f hf b hb
  obtain ⟨hinstrs, hterminator⟩ := hw.laidOut hf hb
  refine ⟨fun i hi => (hinstrs i hi).2, fun t ht => (hterminator t ht).2, ?_⟩
  intro i hi
  have hlaid := hw.contents_laidOut hf b hb i hi
  exact ⟨hlaid, Listing.arguments?_of_laidOut hlaid⟩

/-- The block of the example holds a load, an addition and a return, all laid out. -/
theorem pairCalls_instructions_laid_out :
    ∃ f b, FunctionAddr.read? ⟨0, 0⟩ (pair.after pairCalls).modules = some f ∧
      f.blocks = [b] ∧ b.contents.map (·.op) = [.load, .binary .add, .ret] ∧
      ∀ i ∈ b.contents, i.toDraft.LaidOut ∧
        ∀ names, Listing.arguments? names i.toDraft = some (Listing.arguments names i.toDraft) := by
  have hread : (FunctionAddr.read? ⟨0, 0⟩ (pair.after pairCalls).modules).map
      (fun f => f.blocks.map fun b => b.contents.map (·.op)) =
        some [[.load, .binary .add, .ret]] := by
    decide +kernel
  obtain ⟨f, hf, hops⟩ := Option.map_eq_some_iff.mp hread
  obtain ⟨b, hblocks, hops⟩ := List.map_eq_singleton_iff.mp hops
  have hreachable : (pair.after pairCalls).Reachable := ⟨pair, pairCalls, pair_fresh, rfl⟩
  have hb : b ∈ f.blocks := by simp [hblocks]
  exact ⟨f, b, hf, hblocks, hops, (reachable_instructions_laid_out hreachable _ f hf b hb).2.2⟩

end World

end ThreeAddress
