import Mathlib.Data.List.Basic
import ThreeAddress.Proofs.Layout

/-!
# Listings in pieces

The text of a function is a sequence of pieces: plain text, which no spelling of a temporary goes
into, the places where temporaries are defined, and the operands.  The pieces of a function do not
depend on how its temporaries are spelled; rendering them under the spellings gives the listing
(`render_functionPieces`).

So what is said about a listing is said about its pieces: which temporaries it defines
(`definitions_functionPieces`), and that it writes every operand of every instruction once, in
order (`operands_functionPieces`).
-/

namespace ThreeAddress
namespace Listing

/-- A piece of a listing. -/
inductive Piece where
  | text (s : String)
  /-- A number of the function where it is defined, as a parameter or as a result. -/
  | definition (id : Nat)
  | operand (v : Value)

section Rendering

/-- The text of a piece under the spellings of a function. -/
def Piece.render (names : Names) : Piece → String
  | text s => s
  | definition id => "%" ++ TempNames.lookup names id
  | operand v => Listing.operand names v

/-- The text of a sequence of pieces. -/
def render (names : Names) (pieces : List Piece) : String :=
  String.join (pieces.map (Piece.render names))

/-- The numbers that pieces define. -/
def definitions (pieces : List Piece) : List Nat :=
  pieces.filterMap fun
    | .definition id => some id
    | _ => none

/-- The operands among pieces. -/
def operands (pieces : List Piece) : List Value :=
  pieces.filterMap fun
    | .operand v => some v
    | _ => none

variable (names : Names) (p : Piece) (ps qs : List Piece)

@[simp]
theorem render_nil :
    render names [] = "" :=
  rfl

@[simp]
theorem render_cons :
    render names (p :: ps) = p.render names ++ render names ps :=
  String.join_cons

@[simp]
theorem render_append :
    render names (ps ++ qs) = render names ps ++ render names qs := by
  simp only [render, List.map_append, String.join_append]

@[simp]
theorem definitions_text
    (s : String) :
    definitions (.text s :: ps) = definitions ps :=
  rfl

@[simp]
theorem definitions_definition
    (id : Nat) :
    definitions (.definition id :: ps) = id :: definitions ps :=
  rfl

@[simp]
theorem operands_text
    (s : String) :
    operands (.text s :: ps) = operands ps :=
  rfl

@[simp]
theorem operands_definition
    (id : Nat) :
    operands (.definition id :: ps) = operands ps :=
  rfl

@[simp]
theorem definitions_nil :
    definitions [] = [] :=
  rfl

@[simp]
theorem operands_nil :
    operands [] = [] :=
  rfl

@[simp]
theorem definitions_append :
    definitions (ps ++ qs) = definitions ps ++ definitions qs :=
  List.filterMap_append

@[simp]
theorem operands_append :
    operands (ps ++ qs) = operands ps ++ operands qs :=
  List.filterMap_append

theorem definitions_flatMap
    {α : Type}
    (l : List α)
    (pieces : α → List Piece) :
    definitions (l.flatMap pieces) = l.flatMap fun x => definitions (pieces x) :=
  List.filterMap_flatMap ..

theorem operands_flatMap
    {α : Type}
    (l : List α)
    (pieces : α → List Piece) :
    operands (l.flatMap pieces) = l.flatMap fun x => operands (pieces x) :=
  List.filterMap_flatMap ..

theorem render_flatMap
    {α : Type}
    (l : List α)
    (pieces : α → List Piece) :
    render names (l.flatMap pieces) = String.join (l.map fun x => render names (pieces x)) := by
  induction l with
  | nil =>
      rfl
  | cons x rest ih =>
      rw [List.flatMap_cons, render_append, ih, List.map_cons, String.join_cons]

/-- Pieces with a text between any two of them. -/
def separate (separator : String) : List (List Piece) → List Piece
  | [] => []
  | [ps] => ps
  | ps :: qs :: rest => ps ++ .text separator :: separate separator (qs :: rest)

theorem render_separate
    (separator : String)
    (l : List (List Piece)) :
    render names (separate separator l) = separator.intercalate (l.map (render names)) := by
  fun_induction separate with
  | case1 =>
      rfl
  | case2 ps =>
      simp
  | case3 ps qs rest ih =>
      rw [List.map_cons, List.map_cons, String.intercalate_cons_cons, ← List.map_cons, ← ih]
      simp [Piece.render, String.append_assoc]

/-- What is collected from pieces other than text is not collected from separators. -/
theorem filterMap_separate
    {β : Type}
    {f : Piece → Option β}
    (hf : ∀ s, f (.text s) = none)
    (separator : String)
    (l : List (List Piece)) :
    (separate separator l).filterMap f = l.flatMap (List.filterMap f) := by
  fun_induction separate with
  | case1 =>
      rfl
  | case2 ps =>
      simp
  | case3 ps qs rest ih =>
      rw [List.filterMap_append, List.filterMap_cons_none (hf separator), List.flatMap_cons, ih]

theorem definitions_separate
    (separator : String)
    (l : List (List Piece)) :
    definitions (separate separator l) = l.flatMap definitions :=
  filterMap_separate (fun _ => rfl) separator l

theorem operands_separate
    (separator : String)
    (l : List (List Piece)) :
    operands (separate separator l) = l.flatMap operands :=
  filterMap_separate (fun _ => rfl) separator l

end Rendering

section Instructions

/-- An operand after its type. -/
def typedPieces (v : Value) : List Piece :=
  [.text (v.type.spelling ++ " "), .operand v]

@[simp]
theorem render_typedPieces
    (names : Names)
    (v : Value) :
    render names (typedPieces v) = typedOperand names v := by
  simp [typedPieces, typedOperand, Piece.render]

/-- What follows the operation's word. -/
def argumentPieces (d : Draft) : List Piece :=
  match d.op with
  | .binary _ =>
      [.text (" " ++ d.type.spelling ++ " "), .operand (operandAt d 0),
        .text ", ", .operand (operandAt d 1)]
  | .icmp | .fcmp =>
      .text (" " ++ d.predicate ++ " ") :: typedPieces (operandAt d 0) ++
        [.text ", ", .operand (operandAt d 1)]
  | .cast _ =>
      .text " " :: typedPieces (operandAt d 0) ++ [.text (" to " ++ d.type.spelling)]
  | .alloca =>
      .text (" " ++ d.type.pointee.spelling) ::
        match d.operands with
        | [] => []
        | count :: _ => .text ", " :: typedPieces count
  | .load =>
      .text (" " ++ d.type.spelling ++ ", ") :: typedPieces (operandAt d 0)
  | .store =>
      .text " " :: typedPieces (operandAt d 0) ++ .text ", " :: typedPieces (operandAt d 1)
  | .jump | .branch =>
      match d.operands with
      | [] => []
      | _ :: _ => .text " " :: separate ", " (d.operands.map typedPieces)
  | .ret =>
      match d.operands with
      | [] => [.text " void"]
      | v :: _ => .text " " :: typedPieces v

/-- An instruction. -/
def instrPieces (i : Instr) : List Piece :=
  (if i.hasResult then [.definition i.id, .text " = "] else []) ++
    .text i.op.mnemonic :: argumentPieces i.toDraft

/-- An instruction on a line of its own. -/
def linePieces (i : Instr) : List Piece :=
  .text "  " :: instrPieces i ++ [.text "\n"]

theorem render_argumentPieces
    (names : Names)
    (d : Draft) :
    render names (argumentPieces d) = arguments names d := by
  obtain ⟨op, type, ops, name, predicate⟩ := d
  cases op with
  | alloca | ret =>
      cases ops <;> simp [argumentPieces, arguments, Piece.render, String.append_assoc]
  | jump | branch =>
      cases ops with
      | nil =>
          rfl
      | cons v rest =>
          simp only [argumentPieces, arguments, typedOperands, render_cons, render_separate,
            List.map_map, Piece.render]
          congr 3
  | _ =>
      simp [argumentPieces, arguments, Piece.render, String.append_assoc]

theorem render_linePieces
    (names : Names)
    (i : Instr) :
    render names (linePieces i) = instrLine names i := by
  have hdefinition : render names (if i.hasResult then [.definition i.id, .text " = "] else []) =
      definition names i := by
    simp only [definition, Instr.result?]
    split <;> simp [Piece.render, Instr.handle, operand, String.append_assoc]
  simp [linePieces, instrPieces, instrLine, ofInstr, hdefinition, render_argumentPieces,
    Piece.render, String.append_assoc]

theorem definitions_argumentPieces
    (d : Draft) :
    definitions (argumentPieces d) = [] := by
  obtain ⟨op, type, ops, name, predicate⟩ := d
  cases op with
  | alloca | ret =>
      cases ops <;> rfl
  | jump | branch =>
      cases ops with
      | nil =>
          rfl
      | cons v rest =>
          show definitions (separate ", " _) = []
          rw [definitions_separate, List.flatMap_eq_nil_iff]
          intro ps hps
          obtain ⟨u, _, rfl⟩ := List.mem_map.mp hps
          rfl
  | _ =>
      rfl

/-- A laid out instruction is listed with all its operands, once each and in order. -/
theorem operands_argumentPieces
    {d : Draft}
    (hd : d.LaidOut) :
    operands (argumentPieces d) = d.operands := by
  obtain ⟨op, type, ops, name, predicate⟩ := d
  have hoperands := hd.operands
  cases op with
  | binary op =>
      obtain ⟨lhs, rhs, rfl, _⟩ := hoperands
      rfl
  | icmp =>
      obtain ⟨lhs, rhs, rfl, _⟩ := hoperands
      rfl
  | fcmp =>
      obtain ⟨lhs, rhs, rfl, _⟩ := hoperands
      rfl
  | cast op =>
      obtain ⟨v, rfl⟩ := hoperands
      rfl
  | alloca =>
      obtain ⟨_, rfl | ⟨count, rfl, _⟩⟩ := hoperands <;> rfl
  | load =>
      obtain ⟨address, rfl, _⟩ := hoperands
      rfl
  | store =>
      obtain ⟨value, address, rfl⟩ := hoperands
      rfl
  | jump =>
      obtain ⟨target, rfl⟩ := hoperands
      rfl
  | branch =>
      obtain ⟨condition, onTrue, onFalse, rfl⟩ := hoperands
      rfl
  | ret =>
      match ops, hoperands with
      | [], _ => rfl
      | [_], _ => rfl

theorem definitions_linePieces
    (i : Instr) :
    definitions (linePieces i) = if i.hasResult then [i.id] else [] := by
  simp only [linePieces, instrPieces]
  split <;> simp [definitions_argumentPieces]

theorem operands_linePieces
    {i : Instr}
    (hi : i.toDraft.LaidOut) :
    operands (linePieces i) = i.operands := by
  simp only [linePieces, instrPieces]
  split <;> simp [operands_argumentPieces hi]

end Instructions

section Functions

/-- A block: its label, its instructions, and its end if it has one. -/
def blockPieces (b : Block) : List Piece :=
  .text (b.label ++ ":\n") :: b.contents.flatMap linePieces

/-- The parameter list of a function. -/
def paramPieces (f : Function) : List Piece :=
  separate ", " (f.params.map fun p => [.text (p.type.spelling ++ " "), .definition p.id])

/-- A function. -/
def functionPieces (f : Function) : List Piece :=
  .text ("define " ++ f.result.spelling ++ " @" ++ f.name ++ "(") :: paramPieces f ++
    .text ") \x7b\n" :: f.blocks.flatMap blockPieces ++ [.text "\x7d\n"]

theorem render_blockPieces
    (names : Names)
    (b : Block) :
    render names (blockPieces b) = ofBlock names b := by
  simp only [blockPieces, render_cons, render_flatMap, Piece.render, ofBlock, Block.contents]
  congr 2
  exact List.map_congr_left fun i _ => render_linePieces names i

theorem render_paramPieces
    (names : Names)
    (f : Function) :
    render names (paramPieces f) = params names f := by
  simp only [paramPieces, params, render_separate, List.map_map]
  congr 2

/-- The pieces of a function, under the spellings of its numbers, are its listing. -/
theorem render_functionPieces
    (f : Function) :
    render (namesOf f) (functionPieces f) = ofFunction f := by
  simp only [functionPieces, render_cons, render_append, render_flatMap, render_paramPieces,
    render_blockPieces, Piece.render, render_nil, ofFunction, String.append_assoc,
    List.cons_append, String.append_empty]

/-- The numbers that the listing of a function defines: parameters, and then results. -/
theorem definitions_functionPieces
    (f : Function) :
    definitions (functionPieces f) =
      f.params.map Param.id ++
        ((f.blocks.flatMap Block.contents).filter Instr.hasResult).map (·.id) := by
  have hparams : definitions (paramPieces f) = f.params.map Param.id := by
    rw [paramPieces, definitions_separate, List.flatMap_map, List.map_eq_flatMap]
    rfl
  have hlines : ∀ l : List Instr,
      definitions (l.flatMap linePieces) = (l.filter Instr.hasResult).map (·.id) := by
    intro l
    rw [definitions_flatMap]
    induction l with
    | nil =>
        rfl
    | cons i rest ih =>
        rw [List.flatMap_cons, ih, definitions_linePieces, List.filter_cons]
        split <;> simp
  have hblocks : definitions (f.blocks.flatMap blockPieces) =
      definitions ((f.blocks.flatMap Block.contents).flatMap linePieces) := by
    simp [definitions_flatMap, List.flatMap_assoc, blockPieces]
  simp [functionPieces, hparams, hblocks, hlines]

/-- The listing of a function with laid out instructions writes all their operands in order. -/
theorem operands_functionPieces
    {f : Function}
    (hf : ∀ b ∈ f.blocks, ∀ i ∈ b.contents, i.toDraft.LaidOut) :
    operands (functionPieces f) =
      (f.blocks.flatMap Block.contents).flatMap (·.operands) := by
  have hparams : operands (paramPieces f) = [] := by
    rw [paramPieces, operands_separate, List.flatMap_map, List.flatMap_eq_nil_iff]
    intro p _
    rfl
  have hblocks : operands (f.blocks.flatMap blockPieces) =
      (f.blocks.flatMap Block.contents).flatMap (·.operands) := by
    simp only [operands_flatMap, List.flatMap_assoc, blockPieces, operands_text]
    refine List.flatMap_congr fun b hb => List.flatMap_congr fun i hi => ?_
    exact operands_linePieces (hf b hb i hi)
  simp [functionPieces, hparams, hblocks]

end Functions

end Listing
end ThreeAddress
