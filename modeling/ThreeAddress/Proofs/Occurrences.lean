import ThreeAddress.Proofs.Numbering
import ThreeAddress.Proofs.OperandTexts
import ThreeAddress.Proofs.Pieces
import ThreeAddress.Proofs.Renaming

/-!
# Occurrences of temporaries

A temporary occurs in a listing as an operand or inside the aggregate that is one, at any depth.
The pieces of a listing are taken apart further here, into fragments, so that every occurrence is a
fragment of its own (`occurrences_functionFragments`) and the fragments still make up the listing
(`textOf_functionFragments`).

An operand is written under the spelling of its number, and what is inside an aggregate by the
number itself.  So an occurrence inside an aggregate is written as the temporary's definition is
only if the table happens to spell the number by its count, which it does for unnamed numbers and
hardly for others (`lookup_table_eq_ordinal_iff`).
-/

namespace ThreeAddress

namespace TempNames

section Counts

variable {names : List String} {id k : Nat} {name : String}

/-- A candidate with a count behind a point is no spelling of an unnamed number. -/
theorem numbered_eq_ordinal_iff :
    numbered name k = ordinal id ↔ k = 0 ∧ name = ordinal id := by
  have hnopoint : '.' ∉ (ordinal id).toList := by
    rw [ordinal, String.toList_append, Nat.toList_repr]
    intro hmem
    rcases List.mem_append.mp hmem with hmem | hmem
    · exact absurd hmem (by decide)
    · exact absurd (Texts.isDigit_of_mem_toDigits _ hmem) (by decide)
  cases k with
  | zero =>
      simp [numbered]
  | succ k =>
      refine iff_of_false ?_ (fun h => Nat.succ_ne_zero k h.1)
      intro h
      refine hnopoint ?_
      rw [← h]
      simp [numbered]

/--
A table spells a number by its count if the number has no name, or if its name is this count and no
smaller number took it.
-/
theorem lookup_table_eq_ordinal_iff
    (hid : names[id]? = some name) :
    lookup (table names) id = ordinal id ↔
      name = "" ∨ name = ordinal id ∧ ¬ Owned names id (ordinal id) := by
  rw [lookup, List.getD_eq_getElem?_getD]
  by_cases hname : name = ""
  · rw [hname] at hid
    simp [getElem?_table_unnamed hid, hname]
  · obtain ⟨k, _, hget, hfree, hbefore⟩ := getElem?_table_named hid hname
    rw [hget, Option.getD_some, numbered_eq_ordinal_iff, or_iff_right hname]
    constructor
    · rintro ⟨rfl, rfl⟩
      exact ⟨rfl, hfree⟩
    · rintro ⟨rfl, hnotowned⟩
      refine ⟨Nat.eq_zero_of_not_pos fun hk => ?_, rfl⟩
      exact hnotowned (hbefore 0 hk)

end Counts

end TempNames

namespace Listing

section Definitions

/-- A temporary in an operand, and how many aggregates are around it. -/
structure Occurrence where
  depth : Nat
  id : Nat
  type : Ty
  owner : Nat
deriving Repr

/-- A fragment of a listing. -/
inductive Fragment where
  | text (s : String)
  /-- A number of the function where it is defined, as a parameter or as a result. -/
  | definition (id : Nat)
  | occurrence (o : Occurrence)

mutual

/-- The temporaries in a value that is itself inside some aggregates, from left to right. -/
def occurrencesIn : Nat → Value → List Occurrence
  | depth, .temp id type owner => [⟨depth, id, type, owner⟩]
  | depth, .aggregate _ elems => elemOccurrences (depth + 1) elems
  | _, _ => []

/-- The temporaries in the elements of an aggregate. -/
def elemOccurrences : Nat → List Value → List Occurrence
  | _, [] => []
  | depth, v :: vs => occurrencesIn depth v ++ elemOccurrences depth vs

end

mutual

/-- The fragments of a value that is itself inside some aggregates. -/
def valueFragments : Nat → Value → List Fragment
  | depth, .temp id type owner => [.occurrence ⟨depth, id, type, owner⟩]
  | depth, .aggregate type elems =>
      .text (String.singleton (Value.opening type)) ::
        [.text ", "].intercalate (elemFragments (depth + 1) elems) ++
          [.text (String.singleton (Value.closing type))]
  | _, v => [.text v.spelling]

/-- The fragments of the elements of an aggregate, each after its type. -/
def elemFragments : Nat → List Value → List (List Fragment)
  | _, [] => []
  | depth, v :: vs =>
      (.text (v.type.spelling ++ " ") :: valueFragments depth v) :: elemFragments depth vs

end

/-- The fragments of a piece. -/
def Piece.fragments : Piece → List Fragment
  | text s => [.text s]
  | definition id => [.definition id]
  | operand v => valueFragments 0 v

/-- The fragments of a function. -/
def functionFragments (f : Function) : List Fragment :=
  (functionPieces f).flatMap Piece.fragments

/-- How an occurrence is written: an operand by its spelling, anything further inside by number. -/
def Occurrence.render (names : Names) (o : Occurrence) : String :=
  "%" ++ if o.depth = 0 then TempNames.lookup names o.id else TempNames.ordinal o.id

/-- The text of a fragment under the spellings of a function. -/
def Fragment.render (names : Names) : Fragment → String
  | text s => s
  | definition id => "%" ++ TempNames.lookup names id
  | occurrence o => o.render names

/-- The text of a sequence of fragments. -/
def textOf (names : Names) (fragments : List Fragment) : String :=
  String.join (fragments.map (Fragment.render names))

/-- The occurrences among fragments. -/
def occurrences (fragments : List Fragment) : List Occurrence :=
  fragments.filterMap fun
    | .occurrence o => some o
    | _ => none

end Definitions

section Sequences

variable (names : Names) (x : Fragment) (xs ys : List Fragment)

@[simp]
theorem textOf_nil :
    textOf names [] = "" :=
  rfl

@[simp]
theorem textOf_cons :
    textOf names (x :: xs) = x.render names ++ textOf names xs :=
  String.join_cons

@[simp]
theorem textOf_append :
    textOf names (xs ++ ys) = textOf names xs ++ textOf names ys := by
  simp only [textOf, List.map_append, String.join_append]

@[simp]
theorem occurrences_nil :
    occurrences [] = [] :=
  rfl

@[simp]
theorem occurrences_text
    (s : String) :
    occurrences (.text s :: xs) = occurrences xs :=
  rfl

@[simp]
theorem occurrences_append :
    occurrences (xs ++ ys) = occurrences xs ++ occurrences ys :=
  List.filterMap_append

theorem textOf_intercalate
    (separator : String)
    (l : List (List Fragment)) :
    textOf names ([.text separator].intercalate l) =
      separator.intercalate (l.map (textOf names)) := by
  induction l with
  | nil =>
      rfl
  | cons first rest ih =>
      cases rest with
      | nil =>
          simp
      | cons second rest =>
          rw [List.intercalate_cons_cons, textOf_append, textOf_append, ih]
          simp [Fragment.render, String.append_assoc]

theorem occurrences_intercalate
    (separator : String)
    (l : List (List Fragment)) :
    occurrences ([.text separator].intercalate l) = l.flatMap occurrences := by
  induction l with
  | nil =>
      rfl
  | cons first rest ih =>
      cases rest with
      | nil =>
          simp
      | cons second rest =>
          rw [List.intercalate_cons_cons, occurrences_append, occurrences_append, ih]
          simp

end Sequences

section Operands

/-- On its own a temporary is written as one without a name is. -/
theorem tempText_eq
    (id : Nat) :
    Value.tempText id = "%" ++ TempNames.ordinal id := by
  rw [Value.tempText, TempNames.ordinal, ← String.append_assoc]
  rfl

/-- The fragments of an aggregate make up its spelling if those of its elements do. -/
theorem textOf_aggregate
    {names : Names} {depth : Nat} {type : Ty} {elems : List Value}
    (helems : (elemFragments (depth + 1) elems).map (textOf names) = Value.typedSpellings elems) :
    textOf names (valueFragments depth (.aggregate type elems)) =
      (Value.aggregate type elems).spelling := by
  rw [valueFragments, textOf_append, textOf_cons, textOf_intercalate, helems, Value.spelling]
  refine String.toList_injective ?_
  simp [Fragment.render, Value.toList_bracketed]

mutual

/-- Inside an aggregate the fragments of a value make up its spelling on its own. -/
theorem textOf_valueFragments_succ
    (names : Names) :
    ∀ depth v, textOf names (valueFragments (depth + 1) v) = v.spelling
  | depth, .temp id type owner => by
      simp [valueFragments, Fragment.render, Occurrence.render, Value.spelling, tempText_eq]
  | depth, .aggregate type elems =>
      textOf_aggregate (map_textOf_elemFragments names (depth + 1) elems)
  | _, .int .. | _, .float .. | _, .null _ | _, .block _ => by
      simp [valueFragments, Fragment.render]

theorem map_textOf_elemFragments
    (names : Names) :
    ∀ depth vs, (elemFragments (depth + 1) vs).map (textOf names) = Value.typedSpellings vs
  | _, [] => rfl
  | depth, v :: vs => by
      rw [elemFragments, List.map_cons, textOf_cons, textOf_valueFragments_succ names depth v,
        map_textOf_elemFragments names depth vs]
      rfl

end

/-- The fragments of an operand make up its text. -/
theorem textOf_valueFragments_zero
    (names : Names)
    (v : Value) :
    textOf names (valueFragments 0 v) = operand names v := by
  cases v with
  | temp id type owner =>
      simp [valueFragments, Fragment.render, Occurrence.render, operand]
  | aggregate type elems =>
      exact textOf_aggregate (map_textOf_elemFragments names 0 elems)
  | int | float | null | block =>
      simp [valueFragments, Fragment.render, operand]

mutual

/-- Every temporary in a value is a fragment of it, once and in order. -/
theorem occurrences_valueFragments :
    ∀ depth v, occurrences (valueFragments depth v) = occurrencesIn depth v
  | _, .temp .. => rfl
  | depth, .aggregate type elems => by
      rw [valueFragments, occurrencesIn, ← flatMap_occurrences_elemFragments, List.cons_append,
        occurrences_text, occurrences_append, occurrences_intercalate]
      exact List.append_nil _
  | _, .int .. | _, .float .. | _, .null _ | _, .block _ => rfl

theorem flatMap_occurrences_elemFragments :
    ∀ depth vs, (elemFragments depth vs).flatMap occurrences = elemOccurrences depth vs
  | _, [] => rfl
  | depth, v :: vs => by
      rw [elemFragments, List.flatMap_cons, occurrences_text, occurrences_valueFragments depth v,
        flatMap_occurrences_elemFragments depth vs, elemOccurrences]

end

end Operands

section Functions

/-- The fragments of a function, under the spellings of its numbers, are its listing. -/
theorem textOf_functionFragments
    (f : Function) :
    textOf (namesOf f) (functionFragments f) = ofFunction f := by
  have hpieces : ∀ names pieces,
      textOf names (pieces.flatMap Piece.fragments) = render names pieces := by
    intro names pieces
    induction pieces with
    | nil =>
        rfl
    | cons p rest ih =>
        have hpiece : textOf names p.fragments = p.render names := by
          cases p with
          | text | definition =>
              simp [Piece.fragments, Piece.render, Fragment.render]
          | operand v =>
              exact textOf_valueFragments_zero names v
        rw [List.flatMap_cons, textOf_append, hpiece, ih, render_cons]
  rw [functionFragments, hpieces, render_functionPieces]

/-- The occurrences in a listing are the temporaries in its operands. -/
theorem occurrences_functionFragments
    (f : Function) :
    occurrences (functionFragments f) =
      (operands (functionPieces f)).flatMap (occurrencesIn 0) := by
  rw [functionFragments]
  induction functionPieces f with
  | nil =>
      rfl
  | cons p rest ih =>
      rw [List.flatMap_cons, occurrences_append, ih]
      cases p with
      | text | definition =>
          rfl
      | operand v =>
          rw [Piece.fragments, occurrences_valueFragments]
          rfl

end Functions

end Listing

namespace World

open Listing

variable {w : World}

/--
How temporaries are written in the listing of a function of a reachable world.

The fragments of the function make up its listing, and the occurrences among them are the
temporaries in the operands of its instructions and terminators, from left to right.  An occurrence
of one of the function's numbers is written as the number's definition is if it is an operand
itself.  Inside an aggregate it is written so exactly if the number has no name, or if the name
that it has is its own count and no smaller number took it.
-/
theorem occurrences_spelled
    (hw : w.Reachable) :
    ∀ a f, FunctionAddr.read? a w.modules = some f →
      let names := namesOf f
      let fragments := functionFragments f
      textOf names fragments = ofFunction f ∧
      occurrences fragments =
        ((f.blocks.flatMap Block.contents).flatMap (·.operands)).flatMap (occurrencesIn 0) ∧
      ∀ o ∈ occurrences fragments, o.id < f.nextId →
        (o.render names = (Fragment.definition o.id).render names ↔
          o.depth = 0 ∨ f.nameOf o.id = "" ∨
            f.nameOf o.id = TempNames.ordinal o.id ∧
              ¬ TempNames.Owned f.names o.id (TempNames.ordinal o.id)) := by
  intro a f hf names fragments
  refine ⟨textOf_functionFragments f, ?_, ?_⟩
  · rw [occurrences_functionFragments, operands_functionPieces (hw.contents_laidOut hf)]
  · intro o _ hid
    have hname : f.names[o.id]? = some (f.nameOf o.id) := by
      simp [Function.nameOf, List.getElem?_eq_getElem hid]
    rw [← TempNames.lookup_table_eq_ordinal_iff hname, Occurrence.render, Fragment.render,
      String.append_right_inj]
    by_cases hdepth : o.depth = 0
    · simp [hdepth]
    · rw [if_neg hdepth, or_iff_right hdepth]
      exact eq_comm

/-- A run that stores a struct made of a parameter, and then returns the parameter. -/
def nestedName : List (Nat × Call) :=
  let x : Value := .temp 0 (Ty.int 32) 0
  let type := Ty.struct [Ty.int 32]
  [(0, .startFunction "f" (Ty.int 32) [("x", Ty.int 32), ("p", type.pointer)]),
    (0, .createBlock ⟨0, 0⟩ "entry"),
    (0, .positionAt .finish ⟨0, 0, 0⟩),
    (0, .emit (.store (.aggregate type [x]) (.temp 1 type.pointer 0))),
    (0, .terminate (.ret (some x)))]

/-- The parameter is named where it is returned, and written by its number inside the struct. -/
theorem nestedName_spelled :
    ∃ f, FunctionAddr.read? ⟨0, 0⟩ (pair.after nestedName).modules = some f ∧
      ofFunction f = "define i32 @f(i32 %x, {i32}* %p) \x7b\nentry:\n" ++
        "  store {i32} {i32 %t0}, {i32}* %p\n  ret i32 %x\n\x7d\n" ∧
      (occurrences (functionFragments f)).map (fun o => (o.depth, o.id)) =
        [(1, 0), (0, 1), (0, 0)] ∧
      ∀ o ∈ occurrences (functionFragments f), o.id < f.nextId →
        (o.render (namesOf f) = (Fragment.definition o.id).render (namesOf f) ↔
          o.depth = 0 ∨ f.nameOf o.id = "" ∨
            f.nameOf o.id = TempNames.ordinal o.id ∧
              ¬ TempNames.Owned f.names o.id (TempNames.ordinal o.id)) := by
  have hread : (FunctionAddr.read? ⟨0, 0⟩ (pair.after nestedName).modules).map
      (fun f => (ofFunction f,
        (occurrences (functionFragments f)).map fun o => (o.depth, o.id))) =
        some ("define i32 @f(i32 %x, {i32}* %p) \x7b\nentry:\n" ++
          "  store {i32} {i32 %t0}, {i32}* %p\n  ret i32 %x\n\x7d\n",
          [(1, 0), (0, 1), (0, 0)]) := by
    decide +kernel
  obtain ⟨f, hf, hlisting⟩ := Option.map_eq_some_iff.mp hread
  obtain ⟨htext, hoccurrences⟩ := Prod.mk.inj hlisting
  have hreachable : (pair.after nestedName).Reachable := ⟨pair, nestedName, pair_fresh, rfl⟩
  exact ⟨f, hf, htext, hoccurrences, (occurrences_spelled hreachable _ f hf).2.2⟩

/-- Not every occurrence is written under the spelling of its number. -/
theorem nestedName_unlike_definition :
    ¬ ∀ w : World, w.Reachable → ∀ a f, FunctionAddr.read? a w.modules = some f →
      ∀ o ∈ occurrences (functionFragments f), o.owner = f.index → o.id < f.nextId →
        o.render (namesOf f) = (Fragment.definition o.id).render (namesOf f) := by
  intro h
  have hreachable : (pair.after nestedName).Reachable := ⟨pair, nestedName, pair_fresh, rfl⟩
  have hother : (FunctionAddr.read? ⟨0, 0⟩ (pair.after nestedName).modules).map (fun f =>
      (occurrences (functionFragments f)).any fun o =>
        o.owner == f.index && decide (o.id < f.nextId) &&
          o.render (namesOf f) != (Fragment.definition o.id).render (namesOf f)) = some true := by
    decide +kernel
  obtain ⟨f, hf, hany⟩ := Option.map_eq_some_iff.mp hother
  obtain ⟨o, ho, hrest⟩ := List.any_eq_true.mp hany
  simp only [Bool.and_eq_true, beq_iff_eq, decide_eq_true_eq, bne_iff_ne] at hrest
  obtain ⟨⟨howner, hid⟩, hdiffers⟩ := hrest
  exact hdiffers (h _ hreachable _ f hf o ho howner hid)

end World

end ThreeAddress
