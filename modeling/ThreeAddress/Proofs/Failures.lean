import ThreeAddress.Proofs.Handles
import ThreeAddress.Proofs.Layout

/-!
# Which calls fail, and how

`Call.Fails` is a table of the conditions under which a call fails, each with the kind of the
failure.  It is stated in terms of what the modules hold and where the builder stands, and it does
not follow the checks: that a block is in a module of its own, or that there is a current block, is
a fact about reachable worlds.

`failures_determined` says that in a reachable world the table is exact in both directions, so that
a call succeeds where no condition of the table holds.
-/

namespace ThreeAddress

section Conditions

/-- Two type descriptors differ in some field at some depth. -/
inductive Ty.Differ : Ty → Ty → Prop
  | kind
      {t u : Ty}
      (h : t.kind ≠ u.kind) :
      Differ t u
  | width
      {t u : Ty}
      (h : t.width ≠ u.width) :
      Differ t u
  | count
      {t u : Ty}
      (h : t.count ≠ u.count) :
      Differ t u
  | length
      {t u : Ty}
      (h : t.elems.length ≠ u.elems.length) :
      Differ t u
  | elem
      {t u t' u' : Ty} {k : Nat}
      (ht : t.elems[k]? = some t')
      (hu : u.elems[k]? = some u')
      (h : Differ t' u') :
      Differ t u

/-- The greatest literal count, 2 to the 31st less one. -/
def greatestCount : Int := 0x7fffffff

/-- A count for which no storage can be asked. -/
def AllocaCount.Impossible : AllocaCount Value → Prop
  | .single => False
  | .literal n => n < 1 ∨ greatestCount < n
  | .value v =>
      v.type.kind ≠ .int ∨
        (∀ id type owner n, v ≠ .temp id type owner ∧ v ≠ .int type n) ∨
        ∃ type n, v = .int type n ∧ n ≤ 0

/-- The arguments of an emission do not fit, and a failure about them has a kind. -/
def Emission.Misfits (kind : FaultKind) : Emission Value → Prop
  | .binary _ lhs rhs _ => kind = .typeMismatch ∧ lhs.type.Differ rhs.type
  | .intCompare _ symbol _ _ _ => kind = .invalidArgument ∧ symbol ∉ sourceSymbols
  | .alloca _ count _ => kind = .invalidArgument ∧ count.Impossible
  | .floatCompare .. | .cast .. | .load .. | .store .. => False

namespace Builder

variable (builder : Builder) (modules : List Module)

/-- A value names an instruction in the sequence of a block of the current function. -/
def Finds (v : Value) : Prop :=
  ∃ a f b i, builder.cursor.function = some a ∧ a.read? modules = some f ∧
    b ∈ f.blocks ∧ i ∈ b.instrs ∧ ∃ type, v = .temp i.id type i.parent

/-- Nothing can be placed where the builder stands, and a failure about that has a kind. -/
def Stuck (kind : FaultKind) : Prop :=
  kind = .noInsertPoint ∧ builder.cursor.block = none ∨
    kind = .alreadyTerminated ∧ ∃ a b, builder.cursor.block = some a ∧
      a.read? modules = some b ∧ b.isClosed = true

end Builder

/-- The conditions under which a call on a builder fails with a kind. -/
def Call.Fails (modules : List Module) (builder : Builder) (kind : FaultKind) : Call → Prop
  | .startFunction name _ params =>
      kind = .invalidArgument ∧
        (name = "" ∨
          (∃ m f, modules[builder.home]? = some m ∧ f ∈ m.functions ∧ f.name = name) ∨
          ∃ p ∈ params, p.2.kind = .void)
  | .createBlock a label =>
      kind = .invalidArgument ∧
        (label = "" ∨ ∃ f b, a.read? modules = some f ∧ b ∈ f.blocks ∧ b.label = label)
  | .param a index =>
      kind = .invalidArgument ∧ ∀ f, a.read? modules = some f → f.params.length ≤ index
  | .position _ v =>
      kind = .notFound ∧ ¬ builder.Finds modules v
  | .positionAt _ a =>
      kind = .invalidArgument ∧ ∀ b, a.read? modules = some b → a.moduleAt ≠ builder.home
  | .setLoc _ => False
  | .constant type x =>
      kind = .invalidArgument ∧ type.isFloatingPoint = false ∧
        ∀ n, x.toInt? = some n → n < -Bench.integerBound ∨ Bench.integerBound ≤ n
  | .emit e =>
      e.Misfits kind ∨ (∀ kind', ¬ e.Misfits kind') ∧ builder.Stuck modules kind
  | .terminate _ => builder.Stuck modules kind

end Conditions

section Types

namespace Ty

/-- Descriptors that differ nowhere are the same. -/
theorem eq_of_not_differ :
    ∀ t u : Ty, ¬ t.Differ u → t = u
  | ⟨kind, width, count, elems⟩, ⟨kind', width', count', elems'⟩, h => by
      have hkind : kind = kind' :=
        Decidable.byContradiction fun hne => h (.kind hne)
      have hwidth : width = width' :=
        Decidable.byContradiction fun hne => h (.width hne)
      have hcount : count = count' :=
        Decidable.byContradiction fun hne => h (.count hne)
      have hlength : elems.length = elems'.length :=
        Decidable.byContradiction fun hne => h (.length hne)
      have helems : elems = elems' := by
        refine List.ext_getElem hlength ?_
        intro k hk hk'
        have hsmall := List.sizeOf_lt_of_mem (List.getElem_mem hk)
        refine eq_of_not_differ elems[k] elems'[k] ?_
        intro hdiffer
        exact h (.elem (List.getElem?_eq_getElem hk) (List.getElem?_eq_getElem hk') hdiffer)
      rw [hkind, hwidth, hcount, helems]
termination_by t => sizeOf t
decreasing_by
  simp only [Ty.mk.sizeOf_spec]
  omega

/-- Descriptors differ in some field at some depth exactly when they are not the same. -/
theorem differ_iff_ne
    {t u : Ty} :
    t.Differ u ↔ t ≠ u := by
  constructor
  · intro h
    induction h with
    | kind h | width h | count h | length h =>
        rintro rfl
        exact h rfl
    | elem ht hu _ ih =>
        rintro rfl
        rw [ht] at hu
        exact ih (Option.some.inj hu)
  · intro hne
    exact Classical.byContradiction fun h => hne (eq_of_not_differ t u h)

end Ty

end Types

section Plans

namespace Plan

variable {α β : Type}

/-- A plan ends with a fault of a kind. -/
def Faults (plan : Except Fault α) (kind : FaultKind) : Prop :=
  ∃ fault, plan = .error fault ∧ fault.kind = kind

variable {kind : FaultKind}

@[simp]
theorem faults_ok
    {a : α} :
    ¬ Faults (.ok a) kind := by
  rintro ⟨_, ⟨⟩, _⟩

@[simp]
theorem faults_error
    {fault : Fault} :
    Faults (.error fault : Except Fault α) kind ↔ kind = fault.kind := by
  constructor
  · rintro ⟨_, ⟨⟩, hkind⟩
    exact hkind.symm
  · rintro rfl
    exact ⟨fault, rfl, rfl⟩

/-- A plan has a fault in its check, or the check passes and what follows has one. -/
theorem faults_bind
    {check : Except Fault α} {next : α → Except Fault β} :
    Faults (check >>= next) kind ↔
      Faults check kind ∨ ∃ a, check = .ok a ∧ Faults (next a) kind := by
  cases check <;> simp

/-- A plan whose check is its only one has the faults of the check. -/
theorem faults_bind_ok
    {check : Except Fault α} {next : α → β} :
    Faults (check >>= fun a => .ok (next a)) kind ↔ Faults check kind := by
  simp [faults_bind]

/-- A plan without a fault has an end. -/
theorem exists_ok_iff
    {plan : Except Fault α} :
    (∃ a, plan = .ok a) ↔ ∀ kind, ¬ Faults plan kind := by
  cases plan <;> simp

/-- Where all faults have one kind, a plan has one of it exactly when it has no end. -/
theorem faults_iff_of_kind
    {plan : Except Fault α} {kind₀ : FaultKind}
    (hkind : ∀ fault, plan = .error fault → fault.kind = kind₀) :
    Faults plan kind ↔ kind = kind₀ ∧ ¬ ∃ a, plan = .ok a := by
  cases plan with
  | ok a =>
      simp
  | error fault =>
      simp [hkind fault rfl]

/-- A check that finds nothing else passes with the unit. -/
theorem exists_unit_eq_ok
    {check : Except Fault Unit} :
    (∃ u, check = .ok u) ↔ check = .ok () :=
  ⟨fun ⟨_, h⟩ => h, fun h => ⟨_, h⟩⟩

end Plan

end Plans

section Checks

namespace Bench

open Plan

variable {s : Bench} {kind : FaultKind}

theorem admitFunction_faults_iff
    {name : String} {params : List (String × Ty)} :
    Faults (s.admitFunction name params) kind ↔
      kind = .invalidArgument ∧
        (name = "" ∨ (∃ f ∈ s.home.functions, f.name = name) ∨ ∃ p ∈ params, p.2.isVoid = true) := by
  have hkind : ∀ fault, s.admitFunction name params = .error fault →
      fault.kind = .invalidArgument := by
    intro fault hfault
    unfold admitFunction at hfault
    split at hfault
    · cases hfault
      rfl
    · split at hfault
      · cases hfault
        rfl
      · split at hfault <;> cases hfault
        rfl
  rw [faults_iff_of_kind hkind]
  refine and_congr_right fun _ => ?_
  rw [exists_unit_eq_ok, admitFunction_eq_ok_iff]
  grind

theorem admitBlock_faults_iff
    {f : Function} {label : String} :
    Faults (admitBlock f label) kind ↔
      kind = .invalidArgument ∧ (label = "" ∨ ∃ b ∈ f.blocks, b.label = label) := by
  have hkind : ∀ fault, admitBlock f label = .error fault → fault.kind = .invalidArgument := by
    intro fault hfault
    unfold admitBlock at hfault
    split at hfault
    · cases hfault
      rfl
    · split at hfault <;> cases hfault
      rfl
  rw [faults_iff_of_kind hkind]
  refine and_congr_right fun _ => ?_
  rw [exists_unit_eq_ok, admitBlock_eq_ok_iff]
  grind

theorem parameter_faults_iff
    {f : Function} {index : Nat} :
    Faults (parameter f index) kind ↔
      kind = .invalidArgument ∧ f.params.length ≤ index := by
  cases hindex : f.params[index]? with
  | none =>
      have hle := List.getElem?_eq_none_iff.mp hindex
      simp [parameter, hle, Fault.kind]
  | some p =>
      have hlt := (List.getElem?_eq_some_iff.mp hindex).1
      simp [parameter, hindex, Nat.not_le.mpr hlt]

theorem entry_faults_iff
    {edge : Edge} {a : BlockAddr} :
    Faults (s.entry edge a) kind ↔
      kind = .invalidArgument ∧
        ∀ b, a.read? s.modules = some b →
          ¬ (a.moduleAt = s.builder.home ∧ a.functionAt = b.parent) := by
  have hkind : ∀ fault, s.entry edge a = .error fault → fault.kind = .invalidArgument := by
    intro fault hfault
    unfold entry at hfault
    split at hfault
    · cases hfault
      rfl
    · split at hfault <;> cases hfault
      rfl
  rw [faults_iff_of_kind hkind]
  refine and_congr_right fun _ => ?_
  simp only [entry_eq_ok_iff]
  grind

theorem constant_faults_iff
    {type : Ty} {x : Binary64} :
    Faults (constant type x) kind ↔
      kind = .invalidArgument ∧ type.isFloatingPoint = false ∧
        ∀ n, x.toInt? = some n → n < -integerBound ∨ integerBound ≤ n := by
  unfold constant
  cases htype : type.isFloatingPoint with
  | true =>
      simp
  | false =>
      cases hx : x.toInt? with
      | none =>
          simp [Fault.kind]
      | some n =>
          by_cases hrange : -integerBound ≤ n ∧ n < integerBound
          · simp [hrange]
          · have houtside : n < -integerBound ∨ integerBound ≤ n := by omega
            simp [hrange, houtside, Fault.kind]

/-- What a builder finds is located, whatever side of it the cursor is to go to. -/
theorem exists_locate_iff
    (hcode : WellFormedCode s.modules)
    {side : Side} {v : Value} :
    (∃ found, s.locate side v = .ok found) ↔ s.builder.Finds s.modules v := by
  cases v with
  | temp id type owner =>
      cases hcursor : s.builder.cursor.function with
      | none =>
          simp [locate, Builder.Finds, hcursor]
      | some a =>
          cases hread : a.read? s.modules with
          | none =>
              simp [locate, Builder.Finds, hcursor, hread]
          | some f =>
              have hwell := hcode.function a f hread
              simp only [locate, hcursor, hread, Option.bind_some, Option.map_some]
              constructor
              · intro hlocate
                split at hlocate
                · rename_i p hp
                  split at hp
                  · rename_i howner
                    obtain ⟨b, i, hb, hi, rfl⟩ := Function.locateIn?_eq_some hp
                    have hmem := List.mem_of_getElem? hb
                    have hmem' := List.mem_of_getElem? hi
                    have hparent := hwell.contents_parent_eq b hmem i (List.mem_append_left _ hmem')
                    rw [howner, hwell.index_eq, ← hparent]
                    exact ⟨a, f, b, i, hcursor, hread, hmem, hmem', type, rfl⟩
                  · cases hp
                · cases hlocate.choose_spec
              · rintro ⟨a', f', b, i, ha', hf', hb, hi, type', hv⟩
                cases hcursor.symm.trans ha'
                cases hread.symm.trans hf'
                cases hv
                have hparent := hwell.contents_parent_eq b hb i (List.mem_append_left _ hi)
                rw [if_pos (hparent.trans hwell.index_eq.symm)]
                cases hlocate : f.locate? i.id with
                | none =>
                    exact absurd rfl (Function.locateIn?_eq_none_iff.mp hlocate b hb i hi)
                | some p =>
                    exact ⟨_, rfl⟩
  | _ =>
      simp [locate, Builder.Finds]

theorem locate_faults_iff
    (hcode : WellFormedCode s.modules)
    {side : Side} {v : Value} :
    Faults (s.locate side v) kind ↔
      kind = .notFound ∧ ¬ s.builder.Finds s.modules v := by
  have hkind : ∀ fault, s.locate side v = .error fault → fault.kind = .notFound := by
    intro fault hfault
    unfold locate at hfault
    split at hfault
    · split at hfault
      · cases hfault
        rfl
      · split at hfault <;> cases hfault
        rfl
    · cases hfault
      rfl
  rw [faults_iff_of_kind hkind, exists_locate_iff hcode]

/-- An instruction cannot be placed exactly where the builder is stuck. -/
theorem openSite_faults_iff
    (hbuilder : s.builder.WellPlaced s.modules)
    {op : Opcode} :
    Faults (s.openSite op) kind ↔ s.builder.Stuck s.modules kind := by
  cases hcursor : s.builder.cursor.block with
  | none =>
      simp [openSite, site?, Builder.Stuck, hcursor, Fault.kind]
  | some a =>
      obtain ⟨_, b, hread, _⟩ := hbuilder.block a hcursor
      cases hclosed : b.isClosed <;>
        simp [openSite, site?, Builder.Stuck, hcursor, hread, hclosed, Fault.kind]

end Bench

theorem AllocaCount.operands_faults_iff
    {count : AllocaCount Value} {kind : FaultKind} :
    Plan.Faults count.operands kind ↔ kind = .invalidArgument ∧ count.Impossible := by
  cases count with
  | single =>
      simp [operands, Impossible]
  | literal n =>
      by_cases hrange : 0 < n ∧ n < countBound
      · have hinside : ¬ (n < 1 ∨ greatestCount < n) := by
          simp only [countBound, greatestCount] at *
          omega
        simp [operands, Impossible, hrange, hinside]
      · have houtside : n < 1 ∨ greatestCount < n := by
          simp only [countBound, greatestCount] at *
          omega
        simp [operands, Impossible, hrange, houtside, Fault.kind]
  | value v =>
      cases v with
      | temp id type owner =>
          by_cases htype : type.kind = .int <;>
            simp [operands, Impossible, Value.isCount, Value.type, Ty.isInt, htype, Fault.kind]
      | int type n =>
          by_cases htype : type.kind = .int
          · by_cases hn : 0 < n
            · simp [operands, Impossible, Value.isCount, Value.type, Ty.isInt, htype, hn]
            · have hle : n ≤ 0 := Int.not_lt.mp hn
              simp [operands, Impossible, Value.isCount, Value.type, Ty.isInt, htype, hn, hle,
                Fault.kind]
          · simp [operands, Impossible, Value.isCount, Value.type, Ty.isInt, htype, Fault.kind]
      | _ =>
          simp [operands, Impossible, Value.isCount, Fault.kind]

/-- A symbol without a relation is none of the source symbols. -/
theorem Relation.ofSymbol?_eq_none
    {symbol : String}
    (hsymbol : ofSymbol? symbol = none) :
    symbol ∉ sourceSymbols := by
  intro hmem
  simp only [sourceSymbols, List.mem_cons, List.not_mem_nil, or_false] at hmem
  rcases hmem with rfl | rfl | rfl | rfl | rfl | rfl <;> cases hsymbol

/-- A symbol with a relation is one of the source symbols. -/
theorem Relation.mem_sourceSymbols
    {symbol : String} {relation : Relation}
    (hsymbol : ofSymbol? symbol = some relation) :
    symbol ∈ sourceSymbols := by
  unfold ofSymbol? at hsymbol
  split at hsymbol
  case h_7 =>
      cases hsymbol
  all_goals decide

theorem Emission.draft_faults_iff
    {e : Emission Value} {kind : FaultKind} :
    Plan.Faults e.draft kind ↔ e.Misfits kind := by
  cases e with
  | binary op lhs rhs name =>
      by_cases htypes : lhs.type = rhs.type <;>
        simp [draft, Misfits, Ty.differ_iff_ne, htypes, Fault.kind]
  | intCompare sign symbol lhs rhs name =>
      cases hpredicate : Comparison.intPredicate? sign symbol with
      | some predicate =>
          obtain ⟨relation, hrelation, _⟩ := Option.map_eq_some_iff.mp hpredicate
          have hsymbol := Relation.mem_sourceSymbols hrelation
          simp [draft, Misfits, hpredicate, hsymbol]
      | none =>
          have hsymbol : symbol ∉ sourceSymbols :=
            Relation.ofSymbol?_eq_none (Option.map_eq_none_iff.mp hpredicate)
          simp [draft, Misfits, hpredicate, hsymbol, Fault.kind]
  | alloca type count name =>
      exact Plan.faults_bind_ok.trans AllocaCount.operands_faults_iff
  | floatCompare order symbol lhs rhs name | cast op operand type name | load address name
  | store value address =>
      simp [draft, Misfits]

end Checks

section Calls

open Plan

/-- The plan of a call has the faults that the table says. -/
theorem Call.plan_faults_iff
    {s : Bench} {c : Call} {kind : FaultKind}
    (hcode : WellFormedCode s.modules)
    (hbuilder : s.builder.WellPlaced s.modules) :
    Faults (c.plan s) kind ↔ c.Fails s.modules s.builder kind := by
  cases c with
  | startFunction name result params =>
      have hhome := Bench.modules_home hbuilder.home_lt
      simp only [plan, Fails, pure_eq_ok, faults_bind_ok, Bench.admitFunction_faults_iff, hhome]
      simp [Ty.isVoid]
  | createBlock a label =>
      simp only [plan, Fails, pure_eq_ok, faults_bind_ok, Bench.admitBlock_faults_iff]
      cases a.read? s.modules with
      | none =>
          have hblocks : (default : Function).blocks = [] := rfl
          simp [hblocks]
      | some f =>
          simp
  | param a index =>
      simp only [plan, Fails, pure_eq_ok, faults_bind_ok, Bench.parameter_faults_iff]
      cases a.read? s.modules with
      | none =>
          have hparams : (default : Function).params = [] := rfl
          simp [hparams]
      | some f =>
          simp
  | position side v =>
      exact faults_bind_ok.trans (Bench.locate_faults_iff hcode)
  | positionAt edge a =>
      refine faults_bind_ok.trans (Bench.entry_faults_iff.trans (and_congr_right fun _ => ?_))
      refine forall₂_congr fun b hread => ?_
      rw [BlockAddr.read?_eq, Option.bind_eq_some_iff] at hread
      obtain ⟨f, hf, hb⟩ := hread
      have hparent := (hcode.function _ f hf).parent_eq b (List.mem_of_getElem? hb)
      simp [hparent, BlockAddr.function]
  | setLoc loc =>
      exact iff_of_false faults_ok id
  | constant type x =>
      exact faults_bind_ok.trans Bench.constant_faults_iff
  | emit e =>
      refine faults_bind.trans (or_congr Emission.draft_faults_iff ?_)
      simp only [pure_eq_ok, faults_bind_ok, Bench.openSite_faults_iff hbuilder, exists_and_right,
        exists_ok_iff, Emission.draft_faults_iff]
  | terminate t =>
      exact faults_bind_ok.trans (Bench.openSite_faults_iff hbuilder)

namespace World

variable {w : World}

/-- A call fails with a kind exactly when its plan has a fault of it. -/
theorem call_error_iff
    {b : Nat} {builder : Builder} {c : Call} {kind : FaultKind}
    (hb : w.builders[b]? = some builder) :
    (∃ error, (w.call b c).1 = .error error ∧ error.kind = kind) ↔
      Faults (c.plan (w.benchOf builder)) kind := by
  rw [call_eq hb, Call.perform_eq_plan]
  cases c.plan (w.benchOf builder) with
  | ok outcome =>
      simp
  | error fault =>
      simp [Fault.raisedAt, eq_comm]

/--
Which calls fail in a reachable world, and how, is exactly determined: a call on a builder fails
with a kind under the conditions that the table lists for that kind and under no other, and it
succeeds where the table lists none.
-/
theorem failures_determined
    {b : Nat} {builder : Builder}
    (hw : w.Reachable)
    (hb : w.builders[b]? = some builder)
    (c : Call) :
    (∀ kind, (∃ error, (w.call b c).1 = .error error ∧ error.kind = kind) ↔
      c.Fails w.modules builder kind) ∧
    ((∃ reply, (w.call b c).1 = .ok reply) ↔ ∀ kind, ¬ c.Fails w.modules builder kind) := by
  have hwell := hw.wellFormed
  have hplaced := hwell.builder builder (List.mem_of_getElem? hb)
  have hfails : ∀ kind, (∃ error, (w.call b c).1 = .error error ∧ error.kind = kind) ↔
      c.Fails w.modules builder kind :=
    fun _ => (call_error_iff hb).trans (Call.plan_faults_iff hwell.code hplaced)
  refine ⟨hfails, ?_⟩
  simp only [← hfails]
  cases (w.call b c).1 <;> simp

/--
In the example the first builder stands in a closed block.  There an addition of a number to a truth
value fails for its types and a store for the block, and the builder can still go to the block.
-/
theorem pairCalls_failures :
    let x : Value := .temp 0 (Ty.int 32) 0
    let w := pair.after pairCalls
    (∃ error, (w.call 0 (.emit (.binary .add x (.bool true) ""))).1 = .error error ∧
      error.kind = .typeMismatch) ∧
    (∃ error, (w.call 0 (.emit (.store x x))).1 = .error error ∧
      error.kind = .alreadyTerminated) ∧
    ∃ reply, (w.call 0 (.positionAt .start ⟨0, 0, 0⟩)).1 = .ok reply := by
  intro x w
  have hreachable : w.Reachable := ⟨pair, pairCalls, pair_fresh, rfl⟩
  have hb : w.builders[0]? = some { cursor := ⟨some ⟨0, 0⟩, some ⟨0, 0, 0⟩, 1⟩ } := by
    decide +kernel
  have hread : (BlockAddr.read? ⟨0, 0, 0⟩ w.modules).map Block.isClosed = some true := by
    decide +kernel
  obtain ⟨block, hblock, hclosed⟩ := Option.map_eq_some_iff.mp hread
  have htypes : x.type.Differ (Value.bool true).type := .width (by decide)
  have hdetermined := failures_determined hreachable hb
  refine ⟨?_, ?_, ?_⟩
  · exact ((hdetermined _).1 _).mpr (Or.inl ⟨rfl, htypes⟩)
  · refine ((hdetermined _).1 _).mpr (Or.inr ⟨fun _ => id, Or.inr ⟨rfl, ?_⟩⟩)
    exact ⟨_, block, rfl, hblock, hclosed⟩
  · refine (hdetermined _).2.mpr ?_
    rintro kind ⟨_, hforeign⟩
    exact hforeign block hblock rfl

end World

end Calls

end ThreeAddress
