import ThreeAddress.Listing.Basic
import ThreeAddress.Proofs.Lossless
import ThreeAddress.Proofs.Spellings
import ThreeAddress.Proofs.TypeSpellings

/-!
# Operands are read off their texts

In the listing of a function an operand stands behind its type.  The type is read first, up to the
space behind it.  A temporary starts with a character that no constant starts with, and the table of
the function tells its number.  The text of a constant other than an aggregate has none of the
characters that separate or close, so it ends at the first of these, and its form and its payload
show in its characters (`Value.Literal.scalar_inj`).  The elements of an aggregate are operands
again, so constants are read off their texts by induction (`Value.Literal.decodes`).
-/

namespace ThreeAddress

open Texts

/-- A type is read off its spelling up to a space. -/
theorem Ty.Built.text_space_inj
    {type type' : Ty} {s t : List Char}
    (htype : type.Built)
    (htype' : type'.Built)
    (h : type.text ++ ' ' :: s = type'.text ++ ' ' :: t) :
    type = type' ∧ s = t := by
  obtain ⟨heq, hrest⟩ := htype.decodes type' _ _ htype' (stops_cons rfl _) (stops_cons rfl _) h
  exact ⟨heq, List.tail_eq_of_cons_eq hrest⟩

/-- The truth values are the only type of their kind and width. -/
theorem Ty.Built.eq_bool
    {type : Ty}
    (htype : type.Built)
    (hbool : type.isInt = true ∧ type.width = 1) :
    type = Ty.bool := by
  cases htype with
  | int width =>
      rw [show width = 1 from hbool.2]
      rfl
  | _ =>
      nomatch hbool.1

namespace Value

section Definitions

/--
Constants that are numbers, null pointers, or aggregates of such constants, each under any type that
the constructors build.  The integers of the type of truth values are zero and one.
-/
inductive Literal : Value → Prop
  | int
      {type : Ty} {payload : Int}
      (htype : type.Built)
      (hbool : type = Ty.bool → payload = 0 ∨ payload = 1) :
      Literal (int type payload)
  | float
      {type : Ty} {payload : Binary64}
      (htype : type.Built)
      (hnan : payload.isNaN = false) :
      Literal (float type payload)
  | null
      {type : Ty}
      (htype : type.Built) :
      Literal (null type)
  | aggregate
      {type : Ty} {elems : List Value}
      (htype : type.Built)
      (helems : ∀ v ∈ elems, Literal v) :
      Literal (aggregate type elems)

/-- The values that a function can name in its listing: its own temporaries, and constants. -/
inductive OperandOf (f : Function) : Value → Prop
  | temp
      {id : Nat} {type : Ty}
      (hid : id < f.nextId)
      (htype : type.Built) :
      OperandOf f (temp id type f.index)
  | literal
      {v : Value}
      (hv : Literal v) :
      OperandOf f v

/-- The characters of a value's spelling. -/
def text (v : Value) : List Char :=
  v.spelling.toList

/-- The characters of a value behind its type. -/
def typedText (v : Value) : List Char :=
  v.type.text ++ ' ' :: v.text

/-- The character in front of the elements of an aggregate. -/
def opening (type : Ty) : Char :=
  if type.kind = .struct then '\x7b' else '['

/-- The character behind the elements of an aggregate. -/
def closing (type : Ty) : Char :=
  if type.kind = .struct then '\x7d' else ']'

/-- A constant without elements. -/
def isScalar : Value → Bool
  | int .. | float .. | null _ => true
  | _ => false

/-- The characters of the constants without elements. -/
def inScalar (c : Char) : Bool :=
  c.isAlphanum || c == '.' || c == '+' || c == '-'

/-- The forms of the constants without elements. -/
inductive ScalarForm where
  | int
  | float
  | null

/-- The form of a constant without elements. -/
def form : Value → ScalarForm
  | int .. => .int
  | float .. => .float
  | _ => .null

/-- The form that the text of a constant without elements shows. -/
def shownForm (text : List Char) : ScalarForm :=
  if text = ['n', 'u', 'l', 'l'] then .null
  else if text = ['t', 'r', 'u', 'e'] ∨ text = ['f', 'a', 'l', 's', 'e'] ∨
      ∀ c ∈ text, c.isDigit = true ∨ c = '-' then .int
  else .float

/-- The constant and what follows it are read off a text that starts with the constant. -/
def Decodes (v : Value) : Prop :=
  ∀ w s t, Literal w → Stops inScalar s → Stops inScalar t →
    v.typedText ++ s = w.typedText ++ t → v = w ∧ s = t

end Definitions

section Characters

variable (type : Ty) (n : Int) (elems : List Value)

theorem toList_bracketed
    (text : String) :
    (bracketed type text).toList = opening type :: (text.toList ++ [closing type]) := by
  unfold bracketed opening closing
  split <;> simp

theorem text_aggregate :
    (aggregate type elems).text =
      opening type :: ([',', ' '].intercalate (elems.map typedText) ++ [closing type]) := by
  have htexts : (typedSpellings elems).map String.toList = elems.map typedText := by
    rw [typedSpellings_eq_map, List.map_map]
    refine List.map_congr_left fun v _ => ?_
    simp [typedText, text, Ty.text]
  rw [text, spelling, toList_bracketed, String.toList_intercalate, htexts]
  rfl

/-- The opening character belongs to no constant without elements, and to no temporary. -/
theorem opening_outside :
    inScalar (opening type) = false ∧ opening type ≠ '%' := by
  unfold opening
  split <;> decide

/-- The closing character ends a constant without elements, and it is no comma. -/
theorem closing_outside :
    inScalar (closing type) = false ∧ closing type ≠ ',' := by
  unfold closing
  split <;> decide

theorem inScalar_of_isDigit
    {c : Char}
    (hc : c.isDigit = true) :
    inScalar c = true := by
  simp [inScalar, Char.isAlphanum, hc]

theorem mem_repr :
    ∀ c ∈ n.repr.toList, c.isDigit = true ∨ c = '-' := by
  rw [Int.repr_eq_if]
  split
  · rw [Nat.toList_repr]
    exact fun c hc => Or.inl (isDigit_of_mem_toDigits c hc)
  · rw [String.toList_append, Nat.toList_repr]
    refine List.forall_mem_append.mpr ⟨fun c hc => Or.inr (List.mem_singleton.mp hc), ?_⟩
    exact fun c hc => Or.inl (isDigit_of_mem_toDigits c hc)

theorem repr_ne_nil :
    n.repr.toList ≠ [] := by
  rw [Int.repr_eq_if]
  split
  · rw [Nat.toList_repr]
    exact Nat.toDigits_ne_nil
  · rw [String.toList_append]
    exact List.append_ne_nil_of_left_ne_nil (by decide) _

end Characters

section Scalars

variable {v w : Value}

theorem Literal.built
    (hv : Literal v) :
    v.type.Built := by
  cases hv with
  | int htype _ | float htype _ | null htype | aggregate htype _ =>
      exact htype

theorem shownForm_repr
    (n : Int) :
    shownForm n.repr.toList = .int := by
  have hnull : n.repr.toList ≠ ['n', 'u', 'l', 'l'] := by
    intro h
    have hn := mem_repr n 'n' (by rw [h]; decide)
    exact absurd hn (by decide)
  rw [shownForm, if_neg hnull, if_pos (Or.inr (Or.inr (mem_repr n)))]

theorem shownForm_floatText
    {x : Binary64}
    (hnan : x.isNaN = false) :
    shownForm (floatText x).toList = .float := by
  -- Each of the words has a letter that no number has, and no integer has what marks a number.
  have hword : ∀ c, c.isDigit = false ∧ c ∉ ['.', 'e', '+', '-', 'i', 'n', 'f'] →
      ∀ word, c ∈ word → (floatText x).toList ≠ word := by
    rintro c ⟨hdigit, houtside⟩ word hc rfl
    rcases mem_floatText hnan c hc with h | h
    · exact Bool.false_ne_true (hdigit.symm.trans h)
    · exact houtside h
  have hmark : ¬ ∀ c ∈ (floatText x).toList, c.isDigit = true ∨ c = '-' := by
    intro h
    obtain ⟨c, hc, hmark⟩ := exists_mark_floatText hnan
    simp only [List.mem_cons, List.not_mem_nil, or_false] at hmark
    rcases hmark with rfl | rfl | rfl <;> exact absurd (h _ hc) (by decide)
  rw [shownForm, if_neg (hword 'u' (by decide) _ (by decide)), if_neg]
  rintro (h | h | h)
  · exact hword 't' (by decide) _ (by decide) h
  · exact hword 's' (by decide) _ (by decide) h
  · exact hmark h

/-- The text of a constant without elements shows its form. -/
theorem shownForm_text
    (hv : Literal v)
    (hscalar : v.isScalar = true) :
    shownForm v.text = v.form := by
  cases hv with
  | @int type payload htype hbool =>
      show shownForm (intText type payload).toList = .int
      unfold intText
      split
      · split <;> rfl
      · exact shownForm_repr payload
  | float htype hnan =>
      exact shownForm_floatText hnan
  | null htype =>
      simp [shownForm, text, spelling, form]
  | aggregate htype helems =>
      cases hscalar

theorem Literal.text_ne_nil
    (hv : Literal v)
    (hscalar : v.isScalar = true) :
    v.text ≠ [] := by
  cases hv with
  | @int type payload htype hbool =>
      show (intText type payload).toList ≠ []
      unfold intText
      split
      · split <;> simp
      · exact repr_ne_nil payload
  | @float type payload htype hnan =>
      obtain ⟨c, hc, _⟩ := exists_mark_floatText hnan
      exact List.ne_nil_of_mem hc
  | null htype =>
      simp [text, spelling]
  | aggregate htype helems =>
      cases hscalar

theorem Literal.inScalar_text
    (hv : Literal v)
    (hscalar : v.isScalar = true) :
    ∀ c ∈ v.text, inScalar c = true := by
  cases hv with
  | @int type payload htype hbool =>
      show ∀ c ∈ (intText type payload).toList, _
      unfold intText
      split
      · split <;> simp [inScalar]
      · intro c hc
        rcases mem_repr payload c hc with hdigit | rfl
        · exact inScalar_of_isDigit hdigit
        · decide
  | @float type payload htype hnan =>
      intro c hc
      rcases mem_floatText hnan c hc with hdigit | hother
      · exact inScalar_of_isDigit hdigit
      · simp only [List.mem_cons, List.not_mem_nil, or_false] at hother
        rcases hother with rfl | rfl | rfl | rfl | rfl | rfl | rfl <;> decide
  | null htype =>
      simp [text, spelling, inScalar]
  | aggregate htype helems =>
      cases hscalar

/-- Integers under one type are told by their texts. -/
theorem intText_inj
    {type : Ty} {n m : Int}
    (htype : type.Built)
    (hn : type = Ty.bool → n = 0 ∨ n = 1)
    (hm : type = Ty.bool → m = 0 ∨ m = 1)
    (h : intText type n = intText type m) :
    n = m := by
  unfold intText at h
  by_cases hbool : type.isInt = true ∧ type.width = 1
  · rw [if_pos hbool, if_pos hbool] at h
    have heq := htype.eq_bool hbool
    rcases hn heq with rfl | rfl <;> rcases hm heq with rfl | rfl <;> simp at h ⊢
  · rw [if_neg hbool, if_neg hbool] at h
    exact Int.repr_inj.mp h

/-- Constants without elements are told by their types and their texts. -/
theorem Literal.scalar_inj
    (hv : Literal v)
    (hw : Literal w)
    (hscalar : v.isScalar = true)
    (hscalar' : w.isScalar = true)
    (htype : v.type = w.type)
    (htext : v.text = w.text) :
    v = w := by
  have hform : v.form = w.form := by
    rw [← shownForm_text hv hscalar, htext, shownForm_text hw hscalar']
  have hspelling : v.spelling = w.spelling := String.toList_inj.mp htext
  cases hv with
  | int hbuilt hn =>
      cases hw with
      | int hbuilt' hm =>
          cases htype
          simp only [spelling] at hspelling
          rw [intText_inj hbuilt hn hm hspelling]
      | aggregate => cases hscalar'
      | _ => cases hform
  | float hbuilt hx =>
      cases hw with
      | float hbuilt' hy =>
          cases htype
          simp only [spelling] at hspelling
          rw [floatText_inj hx hy hspelling]
      | aggregate => cases hscalar'
      | _ => cases hform
  | null hbuilt =>
      cases hw with
      | null hbuilt' => exact congrArg Value.null htype
      | aggregate => cases hscalar'
      | _ => cases hform
  | aggregate => cases hscalar

end Scalars

section Decoding

variable {v w : Value} {s t : List Char} {type : Ty} {elems : List Value}

/-- A constant either has no elements or is an aggregate. -/
theorem Literal.isScalar_or_aggregate
    (hv : Literal v) :
    v.isScalar = true ∨ ∃ type elems, v = .aggregate type elems ∧ ∀ e ∈ elems, Literal e := by
  cases hv with
  | int | float | null =>
      exact Or.inl rfl
  | aggregate htype helems =>
      exact Or.inr ⟨_, _, rfl, helems⟩

/-- A constant without elements starts with one of its characters. -/
theorem Literal.exists_head
    (hv : Literal v)
    (hscalar : v.isScalar = true) :
    ∃ c rest, v.text = c :: rest ∧ inScalar c = true := by
  obtain ⟨c, rest, htext⟩ := List.exists_cons_of_ne_nil (hv.text_ne_nil hscalar)
  exact ⟨c, rest, htext, hv.inScalar_text hscalar c (by rw [htext]; exact List.mem_cons_self)⟩

/-- A constant without elements does not start like an aggregate. -/
theorem Literal.text_ne_aggregate
    (hv : Literal v)
    (hscalar : v.isScalar = true) :
    v.text ++ s ≠ (Value.aggregate type elems).text ++ t := by
  intro h
  obtain ⟨c, rest, htext, hc⟩ := hv.exists_head hscalar
  rw [htext, text_aggregate] at h
  rw [List.head_eq_of_cons_eq h, (opening_outside type).1] at hc
  cases hc

theorem decodes_of_isScalar
    (hv : Literal v)
    (hscalar : v.isScalar = true) :
    Decodes v := by
  intro w s t hw hs ht h
  simp only [typedText, List.append_assoc, List.cons_append] at h
  obtain ⟨htype, hrest⟩ := hv.built.text_space_inj hw.built h
  rcases hw.isScalar_or_aggregate with hscalar' | ⟨type, elems, rfl, -⟩
  · obtain ⟨htext, hend⟩ := append_inj_of_stops (hv.inScalar_text hscalar)
      (hw.inScalar_text hscalar') hs ht hrest
    exact ⟨hv.scalar_inj hw hscalar hscalar' htype htext, hend⟩
  · exact absurd hrest (hv.text_ne_aggregate hscalar)

/-- The text of an element starts with that of its type, which does not close a list. -/
theorem Literal.exists_head_typedText
    (hv : Literal v) :
    ∃ c ∈ v.typedText.head?, c ≠ closing type := by
  obtain ⟨c, hc, hbrace, hbracket⟩ := hv.built.exists_head
  refine ⟨c, ?_, ?_⟩
  · rw [typedText, List.head?_append, hc]
    rfl
  · unfold closing
    split
    · exact hbrace
    · exact hbracket

theorem decodes_aggregate
    (htype : type.Built)
    (helems : ∀ e ∈ elems, Literal e)
    (hdecodes : ∀ e ∈ elems, Decodes e) :
    Decodes (aggregate type elems) := by
  intro w s t hw hs ht h
  simp only [typedText, List.append_assoc, List.cons_append] at h
  obtain ⟨htypes, hrest⟩ := htype.text_space_inj hw.built h
  rcases hw.isScalar_or_aggregate with hscalar' | ⟨type', elems', rfl, helems'⟩
  · exact absurd hrest.symm (hw.text_ne_aggregate hscalar')
  · obtain rfl : type = type' := htypes
    have houtside := closing_outside type
    simp only [text_aggregate, List.cons_append, List.append_assoc, List.nil_append] at hrest
    obtain ⟨rfl, hend⟩ := separated_inj houtside.2 (fun e he => he.exists_head_typedText)
      (fun e he e' he' s t hs ht hcode =>
        hdecodes e he e' s t he' (hs.stops rfl houtside.1) (ht.stops rfl houtside.1) hcode)
      helems helems' (List.tail_eq_of_cons_eq hrest)
    exact ⟨rfl, hend⟩

/-- Constants are read off their texts, by induction on their elements. -/
theorem Literal.decodes
    (hv : Literal v) :
    Decodes v := by
  induction hv with
  | int htype hbool =>
      exact decodes_of_isScalar (.int htype hbool) rfl
  | float htype hnan =>
      exact decodes_of_isScalar (.float htype hnan) rfl
  | null htype =>
      exact decodes_of_isScalar (.null htype) rfl
  | aggregate htype helems ih =>
      exact decodes_aggregate htype helems ih

theorem OperandOf.built
    {f : Function}
    (hv : OperandOf f v) :
    v.type.Built := by
  cases hv with
  | temp hid htype =>
      exact htype
  | literal hv =>
      exact hv.built

/-- No constant starts like a temporary. -/
theorem Literal.text_ne_percent
    (hv : Literal v) :
    v.text ≠ '%' :: s := by
  intro h
  rcases hv.isScalar_or_aggregate with hscalar | ⟨type, elems, rfl, -⟩
  · obtain ⟨c, rest, htext, hc⟩ := hv.exists_head hscalar
    cases htext.symm.trans h
    cases hc
  · rw [text_aggregate] at h
    exact (opening_outside type).2 (List.head_eq_of_cons_eq h)

end Decoding

end Value

namespace Listing

open Value

section Operands

variable {f : Function} {a b : Value}

/-- The text of a constant does not depend on the names of temporaries. -/
theorem toList_operand_literal
    (names : Names)
    (ha : Literal a) :
    (operand names a).toList = a.text := by
  cases ha <;> rfl

theorem toList_operand_temp
    (names : Names)
    (id : Nat)
    (type : Ty)
    (owner : Nat) :
    (operand names (temp id type owner)).toList = '%' :: (TempNames.lookup names id).toList := by
  simp [operand]

theorem toList_typedOperand
    (names : Names)
    (a : Value) :
    (typedOperand names a).toList = a.type.text ++ ' ' :: (operand names a).toList := by
  simp [typedOperand, Ty.text]

/--
The text of an operand behind its type identifies the operand.

Two temporaries of a function, two constants, or one of each, that the listing of the function shows
as the same text are the same: of the same form and type, and with the same number, or the same
payload in every bit and every element.
-/
theorem typedOperand_identifies
    (f : Function)
    (a b : Value)
    (ha : OperandOf f a)
    (hb : OperandOf f b)
    (h : typedOperand (namesOf f) a = typedOperand (namesOf f) b) :
    a = b := by
  have htext := congrArg String.toList h
  rw [toList_typedOperand, toList_typedOperand] at htext
  obtain ⟨htype, hrest⟩ := ha.built.text_space_inj hb.built htext
  cases ha with
  | temp hid hbuilt =>
      rw [toList_operand_temp] at hrest
      cases hb with
      | temp hid' hbuilt' =>
          rw [toList_operand_temp] at hrest
          have hlookup := String.toList_inj.mp (List.tail_eq_of_cons_eq hrest)
          cases TempNames.lookup_table_inj hid hid' hlookup
          cases htype
          rfl
      | literal hb =>
          rw [toList_operand_literal _ hb] at hrest
          exact absurd hrest.symm hb.text_ne_percent
  | literal ha =>
      rw [toList_operand_literal _ ha] at hrest
      cases hb with
      | temp hid' hbuilt' =>
          rw [toList_operand_temp] at hrest
          exact absurd hrest ha.text_ne_percent
      | literal hb =>
          rw [toList_operand_literal _ hb] at hrest
          exact (ha.decodes b [] [] hb (stops_nil _) (stops_nil _)
            (by rw [typedText, typedText, htype, hrest])).1

/-- A function that gives two of its three numbers the same name. -/
def twins : Function where
  name := "f"
  names := ["x", "", "x"]

/--
Two temporaries that share a name are shown apart, and a struct with a number under an integer type
and an array of truth values is read off its text.
-/
theorem twins_typedOperand_identifies :
    let i32 := Ty.int 32
    let a : Value :=
      .aggregate (.struct [i32, .array .bool 1])
        [.float i32 ⟨0x3ff0000000000000⟩, .aggregate (.array .bool 1) [.bool true]]
    OperandOf twins a ∧
      typedOperand (namesOf twins) a =
        "\x7bi32, [1 x i1]\x7d \x7bi32 1.0, [1 x i1] [i1 true]\x7d" ∧
      (typedOperand (namesOf twins) a = typedOperand (namesOf twins) a → a = a) ∧
      OperandOf twins (.temp 0 i32 0) ∧ OperandOf twins (.temp 2 i32 0) ∧
      typedOperand (namesOf twins) (.temp 0 i32 0) ≠
        typedOperand (namesOf twins) (.temp 2 i32 0) := by
  intro i32 a
  have hi32 : i32.Built := .int 32
  have harray : (Ty.array .bool 1).Built := .array (.int 1) 1
  have hbool : Literal (.bool true) := .int (.int 1) fun _ => Or.inr rfl
  have ha : OperandOf twins a := by
    refine .literal (.aggregate (.struct ?_) ?_)
    · exact List.forall_mem_cons.mpr ⟨hi32, List.forall_mem_singleton.mpr harray⟩
    · refine List.forall_mem_cons.mpr ⟨.float hi32 (by decide), List.forall_mem_singleton.mpr ?_⟩
      exact .aggregate harray (List.forall_mem_singleton.mpr hbool)
  have hfirst : OperandOf twins (.temp 0 i32 0) := .temp (by decide) hi32
  have hlast : OperandOf twins (.temp 2 i32 0) := .temp (by decide) hi32
  refine ⟨ha, by decide +kernel, typedOperand_identifies twins a a ha ha, hfirst, hlast, ?_⟩
  intro h
  cases typedOperand_identifies twins _ _ hfirst hlast h

end Operands

end Listing

end ThreeAddress
