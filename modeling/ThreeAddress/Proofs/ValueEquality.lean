import ThreeAddress.Proofs.Failures
import ThreeAddress.Proofs.OperandTexts

/-!
# Equality of types and values

Types are equal when they agree in every field at every depth.  Values are compared by their form,
their type and the payload that the form selects, and floating-point payloads as numbers.  So
equality is symmetric and transitive, and a value equals itself unless a NaN is in it.

A value is stored with a field for the payload of every form, and any field may hold anything.
`Value.Record` is this way of storing it, with the equality and the spelling that read the fields of
the form only; the values of the library are the records whose other fields are empty
(`Value.equals_eq`, `Value.spelling_eq`).

Equal values have the same text, but for zeros of opposite sign: from the first of these on the two
texts differ, whatever follows them (`Value.Record.text_apart`).
-/

namespace ThreeAddress

namespace Value

section Definitions

/-- The forms of values. -/
inductive Form where
  | temp
  | int
  | float
  | aggregate
  | null
  | block
deriving DecidableEq, Repr

/-- A value as it is stored: its form, its type, and a payload for every form. -/
structure Record where
  form : Form
  type : Ty
  integer : Int := 0
  number : Binary64 := ⟨0⟩
  id : Nat := 0
  owner : Nat := 0
  label : String := ""
  elems : List Record := []

namespace Record

mutual

/-- Equality of form, type and the payload of the form. -/
def equals : Record → Record → Bool
  | ⟨form₁, type₁, n₁, x₁, id₁, owner₁, label₁, elems₁⟩,
    ⟨form₂, type₂, n₂, x₂, id₂, owner₂, label₂, elems₂⟩ =>
      form₁ == form₂ && type₁ == type₂ &&
        match form₁ with
        | .temp => id₁ == id₂ && owner₁ == owner₂
        | .int => n₁ == n₂
        | .float => x₁.equals x₂
        | .aggregate => equalLists elems₁ elems₂
        | .null => true
        | .block => label₁ == label₂

/-- Equality element by element, with equally many elements. -/
def equalLists : List Record → List Record → Bool
  | [], [] => true
  | r :: rs, s :: ss => equals r s && equalLists rs ss
  | _, _ => false

end

instance : BEq Record := ⟨equals⟩

mutual

/-- The text of the payload of the form. -/
def spelling : Record → String
  | ⟨form, type, n, x, id, _, label, elems⟩ =>
      match form with
      | .temp => tempText id
      | .int => intText type n
      | .float => floatText x
      | .aggregate => bracketed type (", ".intercalate (typedSpellings elems))
      | .null => "null"
      | .block => "%" ++ label

/-- The texts of records, each after its type. -/
def typedSpellings : List Record → List String
  | [] => []
  | r :: rs => (r.type.spelling ++ " " ++ spelling r) :: typedSpellings rs

end

/-- A part of a record: itself, or a part of an element of an aggregate. -/
inductive Reaches : Record → Record → Prop
  | here
      (r : Record) :
      Reaches r r
  | elem
      {r e p : Record}
      (hform : r.form = .aggregate)
      (he : e ∈ r.elems)
      (h : Reaches e p) :
      Reaches r p

/-- Two parts that stand at the same place in two records. -/
inductive SamePlace : Record → Record → Record → Record → Prop
  | here
      (r s : Record) :
      SamePlace r s r s
  | elem
      {r s e e' p q : Record} {k : Nat}
      (hform : r.form = .aggregate)
      (hform' : s.form = .aggregate)
      (he : r.elems[k]? = some e)
      (he' : s.elems[k]? = some e')
      (h : SamePlace e e' p q) :
      SamePlace r s p q

/-- At some place in two records there are zeros of opposite sign. -/
def OppositeZeros (r s : Record) : Prop :=
  ∃ p q, SamePlace r s p q ∧ p.form = .float ∧ q.form = .float ∧
    p.number.isZero = true ∧ q.number.isZero = true ∧ p.number.isNegative ≠ q.number.isNegative

/-- The characters of a record's spelling. -/
def text (r : Record) : List Char :=
  r.spelling.toList

/-- The characters of a record behind its type. -/
def typedText (r : Record) : List Char :=
  r.type.text ++ ' ' :: r.text

/-- The payload that a form selects agrees, the elements of aggregates by a relation. -/
def PayloadsAgree (R : Record → Record → Prop) (r s : Record) : Form → Prop
  | .temp => r.id = s.id ∧ r.owner = s.owner
  | .int => r.integer = s.integer
  | .float => r.number.equals s.number = true
  | .aggregate => List.Forall₂ R r.elems s.elems
  | .null => True
  | .block => r.label = s.label

end Record

mutual

/-- The record of a value, with nothing in the fields of the other forms. -/
def record : Value → Record
  | temp id type owner => { form := .temp, type, id, owner }
  | int type integer => { form := .int, type, integer }
  | float type number => { form := .float, type, number }
  | aggregate type elems => { form := .aggregate, type, elems := records elems }
  | null type => { form := .null, type }
  | block label => { form := .block, type := Ty.label, label }

/-- The records of values. -/
def records : List Value → List Record
  | [] => []
  | v :: vs => record v :: records vs

end

end Definitions

end Value

namespace Binary64

variable {x y z : Binary64}

theorem equals_symm
    (h : x.equals y = true) :
    y.equals x = true := by
  simp only [equals, Bool.and_eq_true, Bool.or_eq_true, beq_iff_eq] at h ⊢
  obtain ⟨⟨hx, hy⟩, heq⟩ := h
  exact ⟨⟨hy, hx⟩, heq.imp Eq.symm And.symm⟩

theorem equals_trans
    (hxy : x.equals y = true)
    (hyz : y.equals z = true) :
    x.equals z = true := by
  simp only [equals, Bool.and_eq_true, Bool.or_eq_true, beq_iff_eq] at hxy hyz ⊢
  obtain ⟨⟨hx, -⟩, hxy⟩ := hxy
  obtain ⟨⟨-, hz⟩, hyz⟩ := hyz
  refine ⟨⟨hx, hz⟩, ?_⟩
  rcases hxy with rfl | ⟨hx, hy⟩
  · exact hyz
  · rcases hyz with rfl | ⟨-, hz⟩
    · exact Or.inr ⟨hx, hy⟩
    · exact Or.inr ⟨hx, hz⟩

/-- A number equals itself unless it is a NaN. -/
theorem equals_self_iff :
    x.equals x = true ↔ x.isNaN = false := by
  simp [equals]

/-- Numbers that are equal are the same, or they are zeros of opposite sign. -/
theorem eq_or_zeros_of_equals
    (h : x.equals y = true) :
    x = y ∨ x.isZero = true ∧ y.isZero = true ∧ x.isNegative ≠ y.isNegative := by
  simp only [equals, Bool.and_eq_true, Bool.or_eq_true, beq_iff_eq] at h
  obtain ⟨-, heq | ⟨hx, hy⟩⟩ := h
  · exact Or.inl heq
  · by_cases hsign : x.isNegative = y.isNegative
    · have hscaled : x.scaled = y.scaled :=
        (scaled_eq_zero_iff.mpr hx).trans (scaled_eq_zero_iff.mpr hy).symm
      exact Or.inl (eq_of_scaled_eq hsign hscaled)
    · exact Or.inr ⟨hx, hy, hsign⟩

end Binary64

namespace Texts

section Apart

/-- Two texts differ, whatever follows them. -/
def Apart (a b : List Char) : Prop :=
  ∀ u v, a ++ u ≠ b ++ v

variable {a b c d : List Char}

theorem Apart.ne
    (h : Apart a b) :
    a ≠ b := by
  rintro rfl
  exact h [] [] rfl

theorem Apart.append_left
    (h : Apart a b)
    (c : List Char) :
    Apart (c ++ a) (c ++ b) := by
  intro u v heq
  rw [List.append_assoc, List.append_assoc] at heq
  exact h u v (List.append_cancel_left heq)

theorem Apart.append_right
    (h : Apart a b)
    (c d : List Char) :
    Apart (a ++ c) (b ++ d) := by
  intro u v heq
  rw [List.append_assoc, List.append_assoc] at heq
  exact h _ _ heq

theorem apart_of_head_ne
    {x y : Char}
    (hne : x ≠ y)
    (a b : List Char) :
    Apart (x :: a) (y :: b) :=
  fun _ _ heq => hne (List.head_eq_of_cons_eq heq)

/--
Lists of texts that are the same or apart, item by item, are apart behind each other if some item
is.
-/
theorem apart_intercalate
    (separator : List Char)
    {as bs : List (List Char)}
    (h : List.Forall₂ (fun a b => a = b ∨ Apart a b) as bs)
    (hne : as ≠ bs) :
    Apart (separator.intercalate as) (separator.intercalate bs) := by
  induction h with
  | nil =>
      exact absurd rfl hne
  | @cons a b as bs hab hrest ih =>
      rcases hab with rfl | hab
      · have ih := ih fun h => hne (congrArg _ h)
        cases hrest with
        | nil =>
            exact absurd rfl hne
        | cons =>
            simp only [List.intercalate_cons_cons]
            exact ih.append_left _
      · cases hrest with
        | nil =>
            simpa using hab
        | cons =>
            simp only [List.intercalate_cons_cons, List.append_assoc]
            exact hab.append_right _ _

end Apart

end Texts

namespace Value

namespace Record

open Texts

section Laws

variable {r s t : Record}

/-- What holds of a record whenever it holds of the elements holds of every record. -/
theorem induction
    {P : Record → Prop}
    (step : ∀ r : Record, (∀ e ∈ r.elems, P e) → P r)
    (r : Record) :
    P r := by
  refine step r fun e he => ?_
  have hsmall : sizeOf e < sizeOf r := by
    have hmem := List.sizeOf_lt_of_mem he
    obtain ⟨form, type, n, x, id, owner, label, elems⟩ := r
    simp only [Record.mk.sizeOf_spec]
    simp only at hmem
    omega
  exact induction step e
termination_by sizeOf r

theorem equalLists_iff
    {rs ss : List Record} :
    equalLists rs ss = true ↔ List.Forall₂ (fun e e' => equals e e' = true) rs ss := by
  induction rs generalizing ss with
  | nil =>
      cases ss <;> simp [equalLists]
  | cons r rs ih =>
      cases ss <;> simp [equalLists, ih]

/-- Records are equal when form and type agree, and the payload of the form. -/
theorem equals_iff :
    r.equals s = true ↔
      r.form = s.form ∧ r.type = s.type ∧
        PayloadsAgree (fun e e' => e.equals e' = true) r s r.form := by
  obtain ⟨form, type, n, x, id, owner, label, elems⟩ := r
  obtain ⟨form', type', n', x', id', owner', label', elems'⟩ := s
  cases form <;> simp [equals, PayloadsAgree, equalLists_iff, and_assoc]

/-- Agreement of payloads is symmetric where it is for the elements. -/
theorem PayloadsAgree.symm
    {R : Record → Record → Prop} {form : Form}
    (helems : ∀ e ∈ r.elems, ∀ e', R e e' → R e' e)
    (h : PayloadsAgree R r s form) :
    PayloadsAgree R s r form := by
  cases form with
  | temp =>
      exact ⟨h.1.symm, h.2.symm⟩
  | int | block =>
      exact Eq.symm h
  | float =>
      exact Binary64.equals_symm h
  | aggregate =>
      refine List.Forall₂.flip ?_
      exact ((List.forall₂_and_left _ _).mpr ⟨helems, h⟩).imp fun e e' he => he.1 e' he.2
  | null =>
      trivial

/-- Agreement of payloads is transitive where it is for the elements. -/
theorem PayloadsAgree.trans
    {R : Record → Record → Prop} {form : Form}
    (helems : ∀ e ∈ r.elems, ∀ e' e'', R e e' → R e' e'' → R e e'')
    (h : PayloadsAgree R r s form)
    (h' : PayloadsAgree R s t form) :
    PayloadsAgree R r t form := by
  cases form with
  | temp =>
      exact ⟨h.1.trans h'.1, h.2.trans h'.2⟩
  | int | block =>
      exact Eq.trans h h'
  | float =>
      exact Binary64.equals_trans h h'
  | aggregate =>
      refine List.forall₂_iff_get.mpr ⟨h.length_eq.trans h'.length_eq, fun k hr ht => ?_⟩
      have hs : k < s.elems.length := h.length_eq ▸ hr
      exact helems _ (List.get_mem ..) _ _ (h.get hr hs) (h'.get hs ht)
  | null =>
      trivial

theorem equals_symm
    (r : Record) :
    ∀ s, r.equals s = true → s.equals r = true := by
  induction r using Record.induction with
  | step r ih =>
      intro s h
      obtain ⟨hform, htype, hpayload⟩ := equals_iff.mp h
      exact equals_iff.mpr ⟨hform.symm, htype.symm, hform ▸ hpayload.symm ih⟩

theorem equals_trans
    (r : Record) :
    ∀ s t, r.equals s = true → s.equals t = true → r.equals t = true := by
  induction r using Record.induction with
  | step r ih =>
      intro s t h h'
      obtain ⟨hform, htype, hpayload⟩ := equals_iff.mp h
      obtain ⟨hform', htype', hpayload'⟩ := equals_iff.mp h'
      rw [← hform] at hpayload'
      exact equals_iff.mpr ⟨hform.trans hform', htype.trans htype', hpayload.trans ih hpayload'⟩

/-- No part is a number that is a NaN. -/
def FreeOfNaN (r : Record) : Prop :=
  ∀ p, r.Reaches p → p.form = .float → p.number.isNaN = false

/-- No NaN is in a record when none is its number and none is in its elements. -/
theorem freeOfNaN_iff :
    r.FreeOfNaN ↔
      (r.form = .float → r.number.isNaN = false) ∧
        (r.form = .aggregate → ∀ e ∈ r.elems, e.FreeOfNaN) := by
  constructor
  · intro h
    exact ⟨h r (.here r), fun hform e he p hp => h p (.elem hform he hp)⟩
  · rintro ⟨hhere, helems⟩ p hp
    cases hp with
    | here =>
        exact hhere
    | elem hform he hp =>
        exact helems hform _ he p hp

/-- A record equals itself exactly when no NaN is in it. -/
theorem equals_self_iff
    (r : Record) :
    r.equals r = true ↔ r.FreeOfNaN := by
  induction r using Record.induction with
  | step r ih =>
      rw [equals_iff, freeOfNaN_iff]
      cases hform : r.form with
      | float =>
          simp [PayloadsAgree, Binary64.equals_self_iff]
      | aggregate =>
          have helems : (∀ e ∈ r.elems, e.equals e = true) ↔ ∀ e ∈ r.elems, e.FreeOfNaN :=
            forall₂_congr ih
          simp [PayloadsAgree, List.forall₂_same, helems]
      | _ =>
          simp [PayloadsAgree]

end Laws

section Spellings

variable {r s : Record}

theorem spelling_eq
    (r : Record) :
    r.spelling =
      match r.form with
      | .temp => tempText r.id
      | .int => intText r.type r.integer
      | .float => floatText r.number
      | .aggregate => bracketed r.type (", ".intercalate (typedSpellings r.elems))
      | .null => "null"
      | .block => "%" ++ r.label := by
  obtain ⟨form, type, n, x, id, owner, label, elems⟩ := r
  rfl

theorem typedSpellings_eq_map
    (rs : List Record) :
    typedSpellings rs = rs.map fun r => r.type.spelling ++ " " ++ r.spelling := by
  induction rs with
  | nil =>
      rfl
  | cons r rs ih =>
      rw [typedSpellings, ih, List.map_cons]

theorem text_aggregate
    (hform : r.form = .aggregate) :
    r.text =
      opening r.type :: ([',', ' '].intercalate (r.elems.map typedText) ++ [closing r.type]) := by
  have htexts : (typedSpellings r.elems).map String.toList = r.elems.map typedText := by
    rw [typedSpellings_eq_map, List.map_map]
    refine List.map_congr_left fun e _ => ?_
    simp [typedText, text, Ty.text]
  rw [text, spelling_eq, hform]
  simp only
  rw [toList_bracketed, String.toList_intercalate, htexts]
  rfl

/-- Outside of aggregates there is one place only. -/
theorem oppositeZeros_scalar_iff
    (hr : r.form ≠ .aggregate) :
    r.OppositeZeros s ↔
      r.form = .float ∧ s.form = .float ∧ r.number.isZero = true ∧ s.number.isZero = true ∧
        r.number.isNegative ≠ s.number.isNegative := by
  constructor
  · rintro ⟨p, q, hplace, hzeros⟩
    cases hplace with
    | here =>
        exact hzeros
    | elem hform =>
        exact absurd hform hr
  · intro hzeros
    exact ⟨r, s, .here r s, hzeros⟩

/-- In aggregates zeros of opposite sign stand in two elements at the same position. -/
theorem oppositeZeros_aggregate_iff
    (hr : r.form = .aggregate)
    (hs : s.form = .aggregate) :
    r.OppositeZeros s ↔
      ∃ (k : Nat) (e e' : Record), r.elems[k]? = some e ∧ s.elems[k]? = some e' ∧
        e.OppositeZeros e' := by
  constructor
  · rintro ⟨p, q, hplace, hp, hrest⟩
    cases hplace with
    | here =>
        rw [hr] at hp
        cases hp
    | elem hform hform' he he' hplace =>
        exact ⟨_, _, _, he, he', p, q, hplace, hp, hrest⟩
  · rintro ⟨k, e, e', he, he', p, q, hplace, hrest⟩
    exact ⟨p, q, .elem hr hs he he' hplace, hrest⟩

/-- The two zeros are written with their signs. -/
theorem apart_floatText_zeros
    {x y : Binary64}
    (hx : x.isZero = true)
    (hy : y.isZero = true)
    (hsign : x.isNegative ≠ y.isNegative) :
    Apart (floatText x).toList (floatText y).toList := by
  have hzero : ∀ z : Binary64, z.isZero = true →
      z = if z.isNegative then ⟨0x8000000000000000⟩ else ⟨0⟩ := by
    intro z hz
    simp only [Binary64.isZero, Bool.and_eq_true, beq_iff_eq] at hz
    split
    · exact Binary64.eq_of_fields ‹_› hz.1 hz.2
    · exact Binary64.eq_of_fields (Bool.eq_false_of_not_eq_true ‹_›) hz.1 hz.2
  have hplus : (floatText ⟨0⟩).toList = ['0', '.', '0'] := by
    decide +kernel
  have hminus : (floatText ⟨0x8000000000000000⟩).toList = ['-', '0', '.', '0'] := by
    decide +kernel
  rw [hzero x hx, hzero y hy]
  cases hx' : x.isNegative <;> cases hy' : y.isNegative <;> simp only [hx', hy'] at hsign ⊢
  · exact absurd rfl hsign
  · simp only [Bool.false_eq_true, if_false, if_true, hplus, hminus]
    exact apart_of_head_ne (by decide) _ _
  · simp only [Bool.false_eq_true, if_false, if_true, hplus, hminus]
    exact apart_of_head_ne (by decide) _ _
  · exact absurd rfl hsign

/-- The texts agree and no zeros of opposite sign are there, or some are and the texts are apart. -/
def TextsSettled (r s : Record) : Prop :=
  r.text = s.text ∧ ¬ r.OppositeZeros s ∨ Apart r.text s.text ∧ r.OppositeZeros s

theorem textsSettled_float
    (hr : r.form = .float)
    (hs : s.form = .float)
    (h : r.number.equals s.number = true) :
    r.TextsSettled s := by
  have hplace := oppositeZeros_scalar_iff (s := s) (fun h : r.form = .aggregate => by
    rw [hr] at h
    cases h)
  have htext : ∀ p : Record, p.form = .float → p.text = (floatText p.number).toList := by
    intro p hp
    rw [text, spelling_eq, hp]
  rw [TextsSettled, hplace, htext r hr, htext s hs]
  rcases Binary64.eq_or_zeros_of_equals h with heq | ⟨hzero, hzero', hsign⟩
  · rw [heq]
    exact Or.inl ⟨rfl, fun h => h.2.2.2.2 rfl⟩
  · exact Or.inr ⟨apart_floatText_zeros hzero hzero' hsign, hr, hs, hzero, hzero', hsign⟩

/-- A common type in front of two texts changes nothing about them. -/
theorem TextsSettled.behind_type
    (h : r.TextsSettled s)
    (htype : r.type = s.type) :
    r.typedText = s.typedText ∧ ¬ r.OppositeZeros s ∨
      Apart r.typedText s.typedText ∧ r.OppositeZeros s := by
  rw [typedText, typedText, htype]
  rcases h with ⟨htext, hzeros⟩ | ⟨htext, hzeros⟩
  · exact Or.inl ⟨by rw [htext], hzeros⟩
  · exact Or.inr ⟨(htext.append_left [' ']).append_left _, hzeros⟩

theorem textsSettled_aggregate
    (hr : r.form = .aggregate)
    (hs : s.form = .aggregate)
    (htype : r.type = s.type)
    (helems : List.Forall₂ (fun e e' => e.type = e'.type ∧ e.TextsSettled e') r.elems s.elems) :
    r.TextsSettled s := by
  have hitems := helems.imp fun e e' he => he.2.behind_type he.1
  have hitem : ∀ (k : Nat) (e e' : Record), r.elems[k]? = some e → s.elems[k]? = some e' →
      e.typedText = e'.typedText ∧ ¬ e.OppositeZeros e' ∨
        Apart e.typedText e'.typedText ∧ e.OppositeZeros e' := by
    intro k e e' he he'
    obtain ⟨hk, rfl⟩ := List.getElem?_eq_some_iff.mp he
    obtain ⟨hk', rfl⟩ := List.getElem?_eq_some_iff.mp he'
    exact hitems.get hk hk'
  rw [TextsSettled, oppositeZeros_aggregate_iff hr hs, text_aggregate hr, text_aggregate hs, htype]
  by_cases hzeros : ∃ (k : Nat) (e e' : Record), r.elems[k]? = some e ∧ s.elems[k]? = some e' ∧
      e.OppositeZeros e'
  · refine Or.inr ⟨?_, hzeros⟩
    obtain ⟨k, e, e', he, he', hzeros⟩ := hzeros
    have happart : Apart e.typedText e'.typedText :=
      ((hitem k e e' he he').resolve_left fun h => h.2 hzeros).1
    have hne : r.elems.map typedText ≠ s.elems.map typedText := by
      intro h
      have hk := congrArg (fun l => l[k]?) h
      simp only [List.getElem?_map, he, he', Option.map_some, Option.some.injEq] at hk
      exact happart.ne hk
    have hlists : List.Forall₂ (fun a b => a = b ∨ Apart a b) (r.elems.map typedText)
        (s.elems.map typedText) := by
      rw [List.forall₂_map_left_iff, List.forall₂_map_right_iff]
      exact hitems.imp fun e e' h => h.imp And.left And.left
    exact ((apart_intercalate [',', ' '] hlists hne).append_right _ _).append_left [opening s.type]
  · refine Or.inl ⟨?_, hzeros⟩
    have htexts : r.elems.map typedText = s.elems.map typedText := by
      refine List.ext_getElem? fun k => ?_
      have hlength := helems.length_eq
      rw [List.getElem?_map, List.getElem?_map]
      cases he : r.elems[k]? with
      | none =>
          have hk : s.elems.length ≤ k := hlength ▸ List.getElem?_eq_none_iff.mp he
          rw [List.getElem?_eq_none hk]
      | some e =>
          have hk : k < s.elems.length := hlength ▸ (List.getElem?_eq_some_iff.mp he).1
          have he' := List.getElem?_eq_getElem hk
          have hsame := (hitem k _ _ he he').resolve_right fun h => hzeros ⟨k, _, _, he, he', h.2⟩
          rw [he', Option.map_some, Option.map_some, hsame.1]
    rw [htexts]

/-- Equal records have the same text, unless zeros of opposite sign stand in them. -/
theorem text_apart
    (r : Record) :
    ∀ s, r.equals s = true → r.TextsSettled s := by
  induction r using Record.induction with
  | step r ih =>
      intro s h
      obtain ⟨hform, htype, hpayload⟩ := equals_iff.mp h
      cases hr : r.form with
      | float =>
          rw [hr] at hpayload
          exact textsSettled_float hr (hform ▸ hr) hpayload
      | aggregate =>
          rw [hr] at hpayload
          refine textsSettled_aggregate hr (hform ▸ hr) htype ?_
          refine ((List.forall₂_and_left _ _).mpr ⟨ih, hpayload⟩).imp fun e e' he => ?_
          exact ⟨(equals_iff.mp he.2).2.1, he.1 e' he.2⟩
      | temp | int | null | block =>
          rw [hr] at hform hpayload
          have hzeros : ¬ r.OppositeZeros s := by
            rw [oppositeZeros_scalar_iff (by simp [hr]), hr]
            rintro ⟨⟨⟩, -⟩
          refine Or.inl ⟨?_, hzeros⟩
          simp only [PayloadsAgree] at hpayload
          simp only [text, spelling_eq, hr, ← hform, htype, hpayload]

end Spellings

end Record

section Records

mutual

/-- Values are equal exactly when their records are. -/
theorem equals_eq : ∀ v w : Value, v.equals w = v.record.equals w.record
  | temp .., w | int .., w | float .., w | null _, w | block _, w => by
      cases w <;> simp [equals, record, Record.equals, Bool.and_assoc]
  | aggregate type elems, w => by
      cases w <;> simp [equals, record, Record.equals, equalLists_eq elems]

theorem equalLists_eq : ∀ vs ws : List Value,
    equalLists vs ws = Record.equalLists (records vs) (records ws)
  | [], ws => by
      cases ws <;> simp [equalLists, records, Record.equalLists]
  | v :: vs, ws => by
      cases ws <;> simp [equalLists, records, Record.equalLists, equals_eq v, equalLists_eq vs]

end

mutual

/-- A value is spelled as its record. -/
theorem spelling_eq : ∀ v : Value, v.spelling = v.record.spelling
  | temp .. | int .. | float .. | null _ | block _ => rfl
  | aggregate type elems => by
      simp only [spelling, record, Record.spelling, typedSpellings_eq elems]

theorem typedSpellings_eq : ∀ vs : List Value,
    typedSpellings vs = Record.typedSpellings (records vs)
  | [] => rfl
  | v :: vs => by
      have htype : v.record.type = v.type := by
        cases v <;> rfl
      simp only [typedSpellings, records, Record.typedSpellings, spelling_eq v,
        typedSpellings_eq vs, htype]

end

/--
Equality of types and values.

Types are equal when they differ in no field at any depth.  Whatever a record holds in the fields that
its form does not select, equality of records is symmetric and transitive, a record equals itself
exactly when no part of it that is a number is a NaN, and equal records have the same text exactly
when nowhere in them zeros of opposite sign stand at the same place.  Values are compared and spelled
as their records are.
-/
theorem equality_laws :
    (∀ a b : Ty, (a == b) = true ↔ ¬ a.Differ b) ∧
    (∀ r s : Record, (r == s) = true → (s == r) = true) ∧
    (∀ r s t : Record, (r == s) = true → (s == t) = true → (r == t) = true) ∧
    (∀ r : Record, (r == r) = true ↔
      ∀ p, r.Reaches p → p.form = .float → p.number.isNaN = false) ∧
    (∀ r s : Record, (r == s) = true → (r.spelling = s.spelling ↔ ¬ r.OppositeZeros s)) ∧
    ∀ v w : Value, (v == w) = (v.record == w.record) ∧ v.spelling = v.record.spelling := by
  refine ⟨?_, fun r => r.equals_symm, fun r => r.equals_trans, Record.equals_self_iff, ?_,
    fun v w => ⟨equals_eq v w, spelling_eq v⟩⟩
  · intro a b
    rw [beq_iff_eq, Ty.differ_iff_ne, ne_eq, Decidable.not_not]
  · intro r s h
    rw [← String.toList_inj]
    rcases r.text_apart s h with ⟨htext, hzeros⟩ | ⟨htext, hzeros⟩
    · exact iff_of_true htext hzeros
    · exact iff_of_false htext.ne (not_not_intro hzeros)

/--
Two structs that are equal although a zero in them has its sign once and once not, and although they
are stored with different fields beside their elements.  A NaN that is left in such a field keeps no
record from being equal to itself.
-/
theorem signed_zeros_equality :
    let nan : Binary64 := ⟨0x7ff8000000000000⟩
    let plus : Record := { form := .float, type := .double, id := 7 }
    let minus : Record := { form := .float, type := .double, number := ⟨0x8000000000000000⟩ }
    let r : Record :=
      { form := .aggregate, type := .struct [.double], number := nan, elems := [plus] }
    let s : Record :=
      { form := .aggregate, type := .struct [.double], label := "s", elems := [minus] }
    (r == s) = true ∧ (s == r) = true ∧ (r == r) = true ∧
      r.spelling = "\x7bdouble 0.0\x7d" ∧ s.spelling = "\x7bdouble -0.0\x7d" ∧
      r.OppositeZeros s := by
  intro nan plus minus r s
  obtain ⟨_, hsymm, htrans, _, htexts, _⟩ := equality_laws
  have heq : (r == s) = true := by decide +kernel
  have hback : (s == r) = true := hsymm r s heq
  have hplus : r.spelling = "\x7bdouble 0.0\x7d" := by decide +kernel
  have hminus : s.spelling = "\x7bdouble -0.0\x7d" := by decide +kernel
  refine ⟨heq, hback, htrans r s r heq hback, hplus, hminus, ?_⟩
  have hdiffer : ¬ r.spelling = s.spelling := by
    rw [hplus, hminus]
    decide
  exact Classical.not_not.mp fun h => hdiffer ((htexts r s heq).mpr h)

end Records

end Value

end ThreeAddress
