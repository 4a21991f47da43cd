import ThreeAddress.Builder.Bench
import ThreeAddress.Builder.Emission

/-!
# What is drafted

`Emission.Drafted` and `Termination.Drafted` state what the arguments of a call become: the
operation, the type, the operands in their order, the name and the predicate.  They have a
constructor for each form of call, with what the checks of the arguments establish, and they
are stated by tables and relations of their own, apart from the functions that draft.

Emissions have exactly the drafts that are stated (`Emission.draft_eq_ok_iff`).  Terminations have
no checks, and record the labels of their targets (`Bench.drafted_termination`).
-/

namespace ThreeAddress

section Tables

/-- The symbols that integers are compared by, each with the predicate that is recorded. -/
def Signedness.predicates : Signedness → List (String × String)
  | .signed =>
      [(">", "sgt"), ("<", "slt"), ("==", "eq"), ("!=", "ne"), (">=", "sge"), ("<=", "sle")]
  | .unsigned =>
      [(">", "ugt"), ("<", "ult"), ("==", "eq"), ("!=", "ne"), (">=", "uge"), ("<=", "ule")]

/-- The symbols that floating-point numbers are compared by, each with its predicate. -/
def Orderedness.predicates : Orderedness → List (String × String)
  | .ordered =>
      [(">", "ogt"), ("<", "olt"), ("==", "oeq"), ("!=", "one"), (">=", "oge"), ("<=", "ole")]
  | .unordered =>
      [(">", "ugt"), ("<", "ult"), ("==", "ueq"), ("!=", "une"), (">=", "uge"), ("<=", "ule")]

/-- The predicate of a floating-point comparison; a symbol without one stands for itself. -/
inductive Orderedness.Records (order : Orderedness) : String → String → Prop
  | known
      {symbol predicate : String}
      (hpredicate : (symbol, predicate) ∈ order.predicates) :
      Records order symbol predicate
  | unknown
      {symbol : String}
      (hsymbol : ∀ p ∈ order.predicates, p.1 ≠ symbol) :
      Records order symbol symbol

/-- What is loaded from an address of a type: what the type points to, and void from all others. -/
inductive Ty.PointsTo : Ty → Ty → Prop
  | target
      {width count : Nat} {type : Ty} {rest : List Ty} :
      PointsTo ⟨.pointer, width, count, type :: rest⟩ type
  | bare
      {width count : Nat} :
      PointsTo ⟨.pointer, width, count, []⟩ ⟨.void, 0, 0, []⟩
  | other
      {type : Ty}
      (hkind : type.kind ≠ .pointer) :
      PointsTo type ⟨.void, 0, 0, []⟩

/-- A value that counts objects: an integer that is a temporary or a positive constant. -/
inductive Value.Counts : Value → Prop
  | temp
      {id owner : Nat} {type : Ty}
      (htype : type.isInt = true) :
      Counts (.temp id type owner)
  | int
      {type : Ty} {payload : Int}
      (htype : type.isInt = true)
      (hpositive : 0 < payload) :
      Counts (.int type payload)

/-- The operands that record how many objects there are: none for one, and else the count. -/
inductive AllocaCount.Recorded : AllocaCount Value → List Value → Prop
  | single :
      Recorded .single []
  | literal
      {n : Int}
      (hpositive : 0 < n)
      (hbound : n < 0x80000000) :
      Recorded (.literal n) [.int (Ty.int 32) n]
  | value
      {v : Value}
      (hv : v.Counts) :
      Recorded (.value v) [v]

end Tables

section Relations

/-- What an emission drafts from its arguments. -/
inductive Emission.Drafted : Emission Value → Draft → Prop
  | binary
      {op : BinaryOp} {lhs rhs : Value} {name : String}
      (htypes : lhs.type = rhs.type) :
      Drafted (.binary op lhs rhs name) ⟨.binary op, lhs.type, [lhs, rhs], name, ""⟩
  | intCompare
      {sign : Signedness} {symbol predicate : String} {lhs rhs : Value} {name : String}
      (hpredicate : (symbol, predicate) ∈ sign.predicates) :
      Drafted (.intCompare sign symbol lhs rhs name)
        ⟨.icmp, Ty.int 1, [lhs, rhs], name, predicate⟩
  | floatCompare
      {order : Orderedness} {symbol predicate : String} {lhs rhs : Value} {name : String}
      (hpredicate : order.Records symbol predicate) :
      Drafted (.floatCompare order symbol lhs rhs name)
        ⟨.fcmp, Ty.int 1, [lhs, rhs], name, predicate⟩
  | cast
      {op : CastOp} {operand : Value} {type : Ty} {name : String} :
      Drafted (.cast op operand type name) ⟨.cast op, type, [operand], name, ""⟩
  | alloca
      {type : Ty} {count : AllocaCount Value} {operands : List Value} {name : String}
      (hcount : count.Recorded operands) :
      Drafted (.alloca type count name) ⟨.alloca, ⟨.pointer, 0, 0, [type]⟩, operands, name, ""⟩
  | load
      {address : Value} {type : Ty} {name : String}
      (htype : address.type.PointsTo type) :
      Drafted (.load address name) ⟨.load, type, [address], name, ""⟩
  | store
      {value address : Value} :
      Drafted (.store value address) ⟨.store, Ty.void, [value, address], "", ""⟩

/-- What a termination drafts from its arguments; a target is recorded by the label of its block. -/
inductive Termination.Drafted (modules : List Module) : Termination Value BlockAddr → Draft → Prop
  | jump
      {target : BlockAddr} {label : String}
      (htarget : ∀ b, target.read? modules = some b → b.label = label) :
      Drafted modules (.jump target) ⟨.jump, Ty.void, [.block label], "", ""⟩
  | branch
      {condition : Value} {onTrue onFalse : BlockAddr} {labelTrue labelFalse : String}
      (htrue : ∀ b, onTrue.read? modules = some b → b.label = labelTrue)
      (hfalse : ∀ b, onFalse.read? modules = some b → b.label = labelFalse) :
      Drafted modules (.branch condition onTrue onFalse)
        ⟨.branch, Ty.void, [condition, .block labelTrue, .block labelFalse], "", ""⟩
  | retNone :
      Drafted modules (.ret none) ⟨.ret, Ty.void, [], "", ""⟩
  | retSome
      {value : Value} :
      Drafted modules (.ret (some value)) ⟨.ret, Ty.void, [value], "", ""⟩

end Relations

section Arguments

/-- The predicates of a relation are in the tables, beside the symbol of the relation. -/
theorem Relation.mem_predicates
    {symbol : String} {relation : Relation}
    (hsymbol : ofSymbol? symbol = some relation) :
    (∀ sign, (symbol, relation.intPredicate sign) ∈ Signedness.predicates sign) ∧
      ∀ order, (symbol, relation.floatPredicate order) ∈ Orderedness.predicates order := by
  unfold ofSymbol? at hsymbol
  split at hsymbol
  case h_7 =>
      cases hsymbol
  all_goals
    cases hsymbol
    exact ⟨fun sign => by cases sign <;> decide, fun order => by cases order <;> decide⟩

theorem Comparison.intPredicate?_eq_some_iff
    {sign : Signedness} {symbol predicate : String} :
    intPredicate? sign symbol = some predicate ↔ (symbol, predicate) ∈ sign.predicates := by
  constructor
  · intro hpredicate
    obtain ⟨relation, hsymbol, rfl⟩ := Option.map_eq_some_iff.mp hpredicate
    exact (Relation.mem_predicates hsymbol).1 sign
  · have htable : ∀ p ∈ sign.predicates, intPredicate? sign p.1 = some p.2 := by
      cases sign <;> decide
    exact htable (symbol, predicate)

theorem Comparison.floatPredicate_eq_iff
    {order : Orderedness} {symbol predicate : String} :
    floatPredicate order symbol = predicate ↔ order.Records symbol predicate := by
  have htable : ∀ p ∈ order.predicates,
      (Relation.ofSymbol? p.1).map (Relation.floatPredicate order) = some p.2 := by
    cases order <;> decide
  constructor
  · rintro rfl
    unfold floatPredicate
    split
    · rename_i relation hsymbol
      exact .known ((Relation.mem_predicates hsymbol).2 order)
    · rename_i hsymbol
      refine .unknown ?_
      rintro p hp rfl
      have hp := htable p hp
      rw [hsymbol] at hp
      cases hp
  · intro hrecords
    unfold floatPredicate
    cases hrecords with
    | known hpredicate =>
        obtain ⟨relation, hsymbol, htext⟩ := Option.map_eq_some_iff.mp (htable _ hpredicate)
        rw [hsymbol]
        exact htext
    | unknown hsymbol =>
        split
        · rename_i relation h
          exact absurd rfl (hsymbol _ ((Relation.mem_predicates h).2 order))
        · rfl

theorem Ty.pointsTo_iff
    {type target : Ty} :
    type.PointsTo target ↔ type.pointee = target := by
  constructor
  · intro h
    cases h with
    | target | bare =>
        rfl
    | other hkind =>
        simp [pointee, isPointer, hkind, void]
  · rintro rfl
    obtain ⟨kind, width, count, elems⟩ := type
    by_cases hkind : kind = .pointer
    · subst hkind
      cases elems with
      | nil =>
          exact .bare
      | cons target rest =>
          exact .target
    · have hvoid : pointee ⟨kind, width, count, elems⟩ = ⟨.void, 0, 0, []⟩ := by
        simp [pointee, isPointer, hkind, void]
      rw [hvoid]
      exact .other hkind

theorem AllocaCount.operands_eq_ok_iff
    {count : AllocaCount Value} {operands : List Value} :
    count.operands = .ok operands ↔ count.Recorded operands := by
  constructor
  · intro hcount
    cases count with
    | single =>
        cases hcount
        exact .single
    | literal n =>
        simp only [AllocaCount.operands] at hcount
        split at hcount
        · rename_i hrange
          cases hcount
          exact .literal hrange.1 hrange.2
        · cases hcount
    | value v =>
        simp only [AllocaCount.operands] at hcount
        by_cases hv : v.isCount = true
        · rw [if_pos hv] at hcount
          cases v with
          | temp id type owner =>
              cases hcount
              exact .value (.temp hv)
          | int type payload =>
              by_cases hpositive : 0 < payload
              · simp only [if_pos hpositive] at hcount
                cases hcount
                exact .value (.int hv hpositive)
              · simp only [if_neg hpositive] at hcount
                cases hcount
          | _ =>
              cases hv
        · rw [if_neg hv] at hcount
          cases hcount
  · intro hcount
    cases hcount with
    | single =>
        rfl
    | literal hpositive hbound =>
        exact if_pos ⟨hpositive, hbound⟩
    | value hv =>
        cases hv with
        | temp htype =>
            exact if_pos htype
        | int htype hpositive =>
            exact (if_pos htype).trans (if_pos hpositive)

end Arguments

section Drafting

namespace Emission

variable {e : Emission Value} {d : Draft}

/-- An emission drafts what is stated, and it drafts this whenever its arguments are as stated. -/
theorem draft_eq_ok_iff :
    e.draft = .ok d ↔ e.Drafted d := by
  constructor
  · intro hd
    cases e with
    | binary op lhs rhs name =>
        simp only [draft] at hd
        split at hd
        · rename_i htypes
          cases hd
          exact .binary htypes
        · cases hd
    | intCompare sign symbol lhs rhs name =>
        simp only [draft] at hd
        split at hd
        · rename_i predicate hpredicate
          cases hd
          exact .intCompare (Comparison.intPredicate?_eq_some_iff.mp hpredicate)
        · cases hd
    | floatCompare order symbol lhs rhs name =>
        cases hd
        exact .floatCompare (Comparison.floatPredicate_eq_iff.mp rfl)
    | cast op operand type name =>
        cases hd
        exact .cast
    | alloca type count name =>
        simp only [draft] at hd
        cases hcount : count.operands with
        | error fault =>
            rw [hcount] at hd
            cases hd
        | ok operands =>
            rw [hcount] at hd
            cases hd
            exact .alloca (AllocaCount.operands_eq_ok_iff.mp hcount)
    | load address name =>
        cases hd
        exact .load (Ty.pointsTo_iff.mpr rfl)
    | store value address =>
        cases hd
        exact .store
  · intro hd
    cases hd with
    | binary htypes =>
        exact if_pos htypes
    | intCompare hpredicate =>
        simp only [draft, Comparison.intPredicate?_eq_some_iff.mpr hpredicate]
        rfl
    | floatCompare hpredicate =>
        simp only [draft, Comparison.floatPredicate_eq_iff.mpr hpredicate]
        rfl
    | cast | store =>
        rfl
    | alloca hcount =>
        simp only [draft, AllocaCount.operands_eq_ok_iff.mpr hcount]
        rfl
    | load htype =>
        simp only [draft, Ty.pointsTo_iff.mp htype]

/-- Instructions that store are drafted without a name. -/
theorem draft_name_of_store
    (hd : e.draft = .ok d)
    (hstore : d.op = .store) :
    d.name = "" := by
  cases draft_eq_ok_iff.mp hd with
  | store =>
      rfl
  | _ =>
      cases hstore

end Emission

/-- A termination drafts what is stated, with the labels that are at its targets. -/
theorem Bench.drafted_termination
    (s : Bench)
    (t : Termination Value BlockAddr) :
    t.Drafted s.modules (t.draft s.labelAt) := by
  have hlabel : ∀ (a : BlockAddr) b, a.read? s.modules = some b → b.label = s.labelAt a := by
    intro a b hb
    simp [labelAt, hb]
  cases t with
  | jump target =>
      exact .jump (hlabel target)
  | branch condition onTrue onFalse =>
      exact .branch (hlabel onTrue) (hlabel onFalse)
  | ret value =>
      cases value with
      | none =>
          exact .retNone
      | some value =>
          exact .retSome

/-- Instructions that end a block are drafted without a name. -/
theorem Termination.draft_name
    (t : Termination Value BlockAddr)
    (label : BlockAddr → String) :
    (t.draft label).name = "" := by
  cases t <;> rfl

end Drafting

end ThreeAddress
