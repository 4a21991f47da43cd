import ThreeAddress.Proofs.Numerals
import ThreeAddress.Value.Spelling

/-!
# Floating-point constants print losslessly

Seventeen significant digits are off by at most half of the sixteenth power of ten, relative to the
number.  Any other number of the same sign is farther away, by at least the fifty-third power of two
relative to the number, also at a power of two and among the subnormals (`scaled_apart`).  So what
is read from the text of a finite number is nearer to it than to any other
(`Value.floatText_lossless`).
-/

namespace ThreeAddress

open Decimal

namespace Binary64

section Definitions

/--
The absolute value of a finite number.  An infinity counts as the power of two behind the greatest
finite number.
-/
def magnitude (x : Binary64) : ℚ :=
  x.numerator / x.denominator

/--
The number nearest to a rational under a sign; of two equally near ones, the one with the even
significand.  From half way to the power of two behind the greatest finite number on, this is an
infinity.
-/
structure IsNearest (negative : Bool) (q : ℚ) (x : Binary64) : Prop where
  isNaN_eq : x.isNaN = false
  isNegative_eq : x.isNegative = negative
  closest : ∀ y : Binary64, y.isNaN = false → y.isNegative = negative → y ≠ x →
    |q - x.magnitude| < |q - y.magnitude| ∨
      |q - x.magnitude| = |q - y.magnitude| ∧ x.significand % 2 = 0

/-- The absolute value in units of the least subnormal. -/
def scaled (x : Binary64) : Nat :=
  x.significand * 2 ^ (x.scaleField - 1)

end Definitions

section Fields

variable {x y : Binary64}

/-- A pattern is its sign and its two fields. -/
theorem eq_of_fields
    (hsign : x.isNegative = y.isNegative)
    (hexponent : x.exponentField = y.exponentField)
    (hfraction : x.fraction = y.fraction) :
    x = y := by
  have hx := x.bits.toNat_lt
  have hy := y.bits.toNat_lt
  rw [isNegative, isNegative, decide_eq_decide] at hsign
  simp only [signWeight] at hsign
  simp only [exponentField, fraction, leadingWeight] at hexponent hfraction
  have hbits : x.bits = y.bits := UInt64.toNat_inj.mp (by omega)
  exact congrArg Binary64.mk hbits

theorem isNaN_of_isFinite
    (hfinite : x.isFinite = true) :
    x.isNaN = false := by
  rw [isFinite, bne_iff_ne] at hfinite
  simp [isNaN, hfinite]

theorem isNegative_eq_of_signText
    (h : x.signText = y.signText) :
    x.isNegative = y.isNegative := by
  rw [signText, signText] at h
  cases hx : x.isNegative <;> cases hy : y.isNegative <;> simp [hx, hy] at h ⊢

/-- An infinity is its sign. -/
theorem eq_of_infinite
    (hsign : x.isNegative = y.isNegative)
    (hx : x.isNaN = false)
    (hy : y.isNaN = false)
    (hinfinite : x.isFinite = false)
    (hinfinite' : y.isFinite = false) :
    x = y := by
  rw [isFinite, bne_eq_false_iff_eq] at hinfinite hinfinite'
  refine eq_of_fields hsign (hinfinite.trans hinfinite'.symm) ?_
  simp only [isNaN, hinfinite, hinfinite', BEq.rfl, Bool.true_and, bne_eq_false_iff_eq] at hx hy
  exact hx.trans hy.symm

theorem significand_lt
    (x : Binary64) :
    x.significand < 2 ^ 53 := by
  have hfraction := x.fraction_lt
  simp only [leadingWeight] at hfraction
  simp only [significand, leadingWeight]
  split <;> omega

theorem one_le_scaleField
    (x : Binary64) :
    1 ≤ x.scaleField :=
  Nat.le_max_left ..

/-- A number above the subnormals has its leading bit. -/
theorem le_significand
    (hscale : 1 < x.scaleField) :
    2 ^ 52 ≤ x.significand := by
  simp only [scaleField] at hscale
  simp only [significand, leadingWeight]
  split <;> omega

/-- A pattern is its sign, its significand and its scale. -/
theorem eq_of_significand
    (hsign : x.isNegative = y.isNegative)
    (hscale : x.scaleField = y.scaleField)
    (hsignificand : x.significand = y.significand) :
    x = y := by
  have hx := x.fraction_lt
  have hy := y.fraction_lt
  simp only [leadingWeight] at hx hy
  simp only [scaleField] at hscale
  simp only [significand, leadingWeight] at hsignificand
  refine eq_of_fields hsign ?_ ?_ <;> split at hsignificand <;> split at hsignificand <;> omega

theorem significand_eq_zero_iff :
    x.significand = 0 ↔ x.isZero = true := by
  simp only [significand, leadingWeight, isZero, Bool.and_eq_true, beq_iff_eq]
  split <;> omega

theorem scaled_eq_zero_iff :
    x.scaled = 0 ↔ x.isZero = true := by
  have hpow : 2 ^ (x.scaleField - 1) ≠ 0 := (Nat.pow_pos (by decide)).ne'
  rw [scaled, Nat.mul_eq_zero, or_iff_left hpow, significand_eq_zero_iff]

theorem numerator_pos
    (hzero : x.isZero ≠ true) :
    0 < x.numerator :=
  Nat.mul_pos (Nat.pos_of_ne_zero (mt significand_eq_zero_iff.mp hzero)) (Nat.pow_pos (by decide))

/-- A quotient with a power of two above or below, over one denominator. -/
theorem shifted_quotient
    (m k : Nat)
    {s : Nat}
    (hs : 1 ≤ s) :
    ((m * Nat.pow 2 (s - (k + 1)) : Nat) : ℚ) / (Nat.pow 2 (k + 1 - s) : Nat) =
      (m * 2 ^ (s - 1) : Nat) / 2 ^ k := by
  rw [Nat.pow_eq, Nat.pow_eq]
  push_cast
  rw [div_eq_div_iff (by positivity) (by positivity), mul_assoc, mul_assoc, ← pow_add, ← pow_add]
  congr 2
  omega

theorem magnitude_eq
    (x : Binary64) :
    x.magnitude = x.scaled / 2 ^ 1074 :=
  shifted_quotient x.significand 1074 x.one_le_scaleField

end Fields

section Spacing

variable {x y : Binary64}

/--
A number of a greater scale has its leading bit, so it is the greater one.  In units of the finer
scale the two are on different sides of the fifty-third power of two.
-/
theorem exists_units_of_scaleField_lt
    (hscale : x.scaleField < y.scaleField) :
    ∃ a b u, x.scaled = a * u ∧ y.scaled = b * u ∧ a < 2 ^ 53 ∧ 2 ^ 53 ≤ b := by
  have hpositive := x.one_le_scaleField
  obtain ⟨j, hj⟩ := Nat.exists_eq_add_of_lt hscale
  refine ⟨x.significand, y.significand * 2 ^ (j + 1), 2 ^ (x.scaleField - 1), rfl, ?_,
    x.significand_lt, ?_⟩
  · rw [scaled, Nat.mul_assoc, ← Nat.pow_add]
    congr 2
    omega
  · have hlead : 2 ^ 52 ≤ y.significand := le_significand (by omega)
    calc 2 ^ 53 = 2 ^ 52 * 2 := by norm_num
      _ ≤ y.significand * 2 ^ (j + 1) :=
        Nat.mul_le_mul hlead (Nat.le_self_pow (Nat.succ_ne_zero j) 2)

/-- A distance relative to one of two numbers does not depend on their unit. -/
theorem apart_mul
    {a b : Nat}
    (u : Nat)
    (h : a + 2 ^ 53 * b ≤ 2 ^ 53 * a ∨ a + 2 ^ 53 * a ≤ 2 ^ 53 * b) :
    a * u + 2 ^ 53 * (b * u) ≤ 2 ^ 53 * (a * u) ∨ a * u + 2 ^ 53 * (a * u) ≤ 2 ^ 53 * (b * u) := by
  refine h.imp (fun h => ?_) (fun h => ?_)
  · have hmul := Nat.mul_le_mul_right u h
    rwa [Nat.add_mul, Nat.mul_assoc, Nat.mul_assoc] at hmul
  · have hmul := Nat.mul_le_mul_right u h
    rwa [Nat.add_mul, Nat.mul_assoc, Nat.mul_assoc] at hmul

/--
Different numbers of the same sign are apart by at least the fifty-third power of two relative to
either of them.
-/
theorem scaled_apart
    (hsign : x.isNegative = y.isNegative)
    (hne : x ≠ y) :
    x.scaled + 2 ^ 53 * y.scaled ≤ 2 ^ 53 * x.scaled ∨
      x.scaled + 2 ^ 53 * x.scaled ≤ 2 ^ 53 * y.scaled := by
  rcases Nat.lt_trichotomy x.scaleField y.scaleField with hlt | heq | hlt
  · obtain ⟨a, b, u, hx, hy, ha, hb⟩ := exists_units_of_scaleField_lt hlt
    rw [hx, hy]
    exact apart_mul u (by omega)
  · have hx := x.significand_lt
    have hy := y.significand_lt
    have hsignificand : x.significand ≠ y.significand :=
      fun h => hne (eq_of_significand hsign heq h)
    rw [scaled, scaled, ← heq]
    exact apart_mul _ (by omega)
  · obtain ⟨a, b, u, hy, hx, hb, ha⟩ := exists_units_of_scaleField_lt hlt
    rw [hx, hy]
    exact apart_mul u (by omega)

/-- Numbers of the same sign and the same absolute value are the same. -/
theorem eq_of_scaled_eq
    (hsign : x.isNegative = y.isNegative)
    (hscaled : x.scaled = y.scaled) :
    x = y := by
  by_contra hne
  have hapart := scaled_apart hsign hne
  have hzero : x.scaled = 0 := by omega
  have hx := scaled_eq_zero_iff.mp hzero
  have hy := scaled_eq_zero_iff.mp (hscaled ▸ hzero)
  simp only [isZero, Bool.and_eq_true, beq_iff_eq] at hx hy
  exact hne (eq_of_fields hsign (hx.1.trans hy.1.symm) (hx.2.trans hy.2.symm))

theorem magnitude_le_apart
    (hsign : x.isNegative = y.isNegative)
    (hne : x ≠ y) :
    x.magnitude ≤ 2 ^ 53 * |x.magnitude - y.magnitude| := by
  rw [magnitude_eq, magnitude_eq, ← sub_div, abs_div, abs_of_pos (by positivity : (0 : ℚ) < 2 ^ 1074),
    ← mul_div_assoc]
  gcongr
  rcases scaled_apart hsign hne with h | h
  · have hcast : (x.scaled : ℚ) + 2 ^ 53 * y.scaled ≤ 2 ^ 53 * x.scaled := by exact_mod_cast h
    have hle := le_abs_self ((x.scaled : ℚ) - y.scaled)
    linarith
  · have hcast : (x.scaled : ℚ) + 2 ^ 53 * x.scaled ≤ 2 ^ 53 * y.scaled := by exact_mod_cast h
    have hle := neg_le_abs ((x.scaled : ℚ) - y.scaled)
    linarith

/-- A rational that is off by no more than this is nearest to the number and to no other one. -/
theorem isNearest_iff_of_error
    {q : ℚ}
    (hnan : x.isNaN = false)
    (herror : 2 * 10 ^ 16 * |q - x.magnitude| ≤ x.magnitude) :
    IsNearest x.isNegative q y ↔ y = x := by
  have hcloser : ∀ z : Binary64, z.isNegative = x.isNegative → z ≠ x →
      |q - x.magnitude| < |q - z.magnitude| := by
    intro z hsign hne
    have hapart := magnitude_le_apart hsign.symm hne.symm
    have hdistinct : 0 < |x.magnitude - z.magnitude| := by
      rw [abs_pos, sub_ne_zero, magnitude_eq, magnitude_eq]
      intro heq
      rw [div_left_inj' (by positivity), Nat.cast_inj] at heq
      exact hne (eq_of_scaled_eq hsign heq.symm)
    have htriangle := abs_sub_le x.magnitude q z.magnitude
    rw [abs_sub_comm x.magnitude q] at htriangle
    linarith
  constructor
  · intro hnearest
    by_contra hne
    have hlt := hcloser y hnearest.isNegative_eq hne
    rcases hnearest.closest x hnan rfl (Ne.symm hne) with h | ⟨h, _⟩ <;> linarith
  · rintro rfl
    exact ⟨hnan, rfl, fun z _ hsign hne => Or.inl (hcloser z hsign hne)⟩

end Spacing

end Binary64

namespace Value

open Binary64

section Texts

variable {x : Binary64}

theorem toList_significantText
    (layout : Layout)
    (hfinite : x.isFinite = true) :
    (x.significantText layout).toList =
      x.signText ++ if x.isZero then ['0'] else
        (Scientific.ofQuotient layout.digits x.numerator x.denominator).render layout := by
  simp [significantText, magnitudeText, isNaN_of_isFinite hfinite, hfinite]

/--
Behind its sign, the text of a finite number with significant digits is a numeral that is off by at
most half a unit of the last digit.
-/
theorem exists_numeral_significantText
    (hfinite : x.isFinite = true) :
    ∃ n : Numeral, (x.significantText floatLayout).toList = x.signText ++ n.text ∧
      2 * 10 ^ 16 * |n.value - x.magnitude| ≤ x.magnitude := by
  rw [toList_significantText floatLayout hfinite]
  by_cases hzero : x.isZero = true
  · have hmagnitude : x.magnitude = 0 := by
      rw [magnitude_eq, scaled_eq_zero_iff.mpr hzero, Nat.cast_zero, zero_div]
    refine ⟨.zero, by rw [if_pos hzero]; rfl, ?_⟩
    rw [Numeral.value_zero, hmagnitude]
    norm_num
  · have hnumerator := numerator_pos hzero
    have hdenominator := x.denominator_pos
    have hdigits : 0 < 17 := by decide
    let d := Scientific.ofQuotient 17 x.numerator x.denominator
    obtain ⟨hlow, hhigh⟩ : 10 ^ 16 ≤ d.coefficient ∧ d.coefficient < 10 ^ 17 :=
      Scientific.coefficient_ofQuotient hdigits hnumerator hdenominator
    have herror := Scientific.ofQuotient_error hdigits hnumerator hdenominator
    have hpos : 0 < d.coefficient := Nat.lt_of_lt_of_le (by decide) hlow
    obtain ⟨n, htext, hvalue⟩ := Scientific.exists_numeral hpos floatLayout
    rw [digitCount_eq_of_bounds hlow hhigh] at hvalue
    refine ⟨n, by rw [if_neg hzero, htext]; rfl, ?_⟩
    rw [hvalue]
    exact herror

theorem eq_minus_of_mem_signText :
    ∀ c ∈ x.signText, c = '-' := by
  unfold signText
  split <;> simp

/-- The text of a finite number is a numeral behind its sign, and it shows that it is no integer. -/
theorem exists_numeral_floatText
    (hfinite : x.isFinite = true) :
    ∃ n : Numeral, (floatText x).toList = x.signText ++ n.text ∧
      2 * 10 ^ 16 * |n.value - x.magnitude| ≤ x.magnitude ∧ ('.' ∈ n.text ∨ 'e' ∈ n.text) := by
  obtain ⟨n, htext, herror⟩ := exists_numeral_significantText hfinite
  by_cases hplain : '.' ∈ n.text ∨ 'e' ∈ n.text
  · refine ⟨n, ?_, herror, hplain⟩
    have hmarks : marksFloat (x.significantText floatLayout) = true := by
      rw [marksFloat, htext, List.any_eq_true]
      rcases hplain with h | h
      · exact ⟨'.', List.mem_append_right _ h, by decide⟩
      · exact ⟨'e', List.mem_append_right _ h, by decide⟩
    simp only [floatText, hmarks, if_true, htext]
  · obtain ⟨hpoint, hletter⟩ := not_or.mp hplain
    obtain ⟨hfraction, hpower⟩ := n.parts_eq_nil hpoint hletter
    obtain ⟨m, hm, hvalue⟩ := n.exists_append_zero hfraction hpower
    refine ⟨m, ?_, hvalue ▸ herror, Or.inl (by rw [hm]; simp)⟩
    have hmarks : marksFloat (x.significantText floatLayout) = false := by
      rw [marksFloat, htext, n.text_eq_whole hfraction hpower, List.any_eq_false]
      refine List.forall_mem_append.mpr ⟨fun c hc => ?_, fun c hc => ?_⟩
      · rw [eq_minus_of_mem_signText c hc]
        decide
      · have hdigit := n.whole_digits c hc
        intro hmark
        simp only [Bool.or_eq_true, beq_iff_eq] at hmark
        rcases hmark with ((rfl | rfl) | rfl) | rfl <;> exact absurd hdigit (by decide)
    simp only [floatText, hmarks, Bool.false_eq_true, if_false, String.toList_append, htext, hm,
      List.append_assoc]
    rfl

/--
The text of a finite number reads as a number to which the finite number is the nearest one, and no
other is.
-/
theorem read?_floatText
    (hfinite : x.isFinite = true) :
    ∃ q : ℚ, read? (floatText x).toList = some ⟨x.isNegative, q⟩ ∧
      ∀ y, IsNearest x.isNegative q y ↔ y = x := by
  obtain ⟨n, htext, herror, _⟩ := exists_numeral_floatText hfinite
  refine ⟨n.value, ?_, fun y => isNearest_iff_of_error (isNaN_of_isFinite hfinite) herror⟩
  rw [htext]
  exact n.read?_text x.isNegative

/--
Floating-point constants print losslessly.

The text of a constant with a finite payload reads, as an exact decimal, as a number of the same sign
to which the payload is nearest among all floating-point numbers of this sign, and no other one is.
The text has a point or an exponent.
-/
theorem floatText_lossless
    (type : Ty)
    (x : Binary64)
    (hfinite : x.isFinite = true) :
    (∃ q : ℚ, read? (float type x).spelling.toList = some ⟨x.isNegative, q⟩ ∧
      ∀ y, IsNearest x.isNegative q y ↔ y = x) ∧
    ('.' ∈ (float type x).spelling.toList ∨ 'e' ∈ (float type x).spelling.toList) := by
  obtain ⟨n, htext, _, hmarked⟩ := exists_numeral_floatText hfinite
  rw [spelling]
  refine ⟨read?_floatText hfinite, ?_⟩
  rw [htext]
  exact hmarked.imp (List.mem_append_right _) (List.mem_append_right _)

/--
The least subnormal number needs all of its seventeen digits and a power of ten, and at the negative
zero the sign is read back.
-/
theorem subnormal_floatText_lossless :
    let least : Binary64 := ⟨1⟩
    let zero : Binary64 := ⟨0x8000000000000000⟩
    least.isFinite = true ∧ (float .double least).spelling = "4.9406564584124654e-324" ∧
      (∃ q : ℚ, read? (float .double least).spelling.toList = some ⟨false, q⟩ ∧
        ∀ y, IsNearest false q y ↔ y = least) ∧
      zero.isFinite = true ∧ (float .double zero).spelling = "-0.0" ∧
      ∃ q : ℚ, read? (float .double zero).spelling.toList = some ⟨true, q⟩ ∧
        ∀ y, IsNearest true q y ↔ y = zero :=
  ⟨by decide, by decide +kernel, (floatText_lossless .double ⟨1⟩ (by decide)).1,
    by decide, by decide +kernel, (floatText_lossless .double ⟨0x8000000000000000⟩ (by decide)).1⟩

end Texts

section Injectivity

variable {x y : Binary64}

/-- The text of an infinity is a word behind its sign. -/
theorem toList_floatText_infinite
    (hnan : x.isNaN = false)
    (hfinite : x.isFinite = false) :
    (floatText x).toList = x.signText ++ ['i', 'n', 'f'] := by
  have htext : (x.significantText floatLayout).toList = x.signText ++ ['i', 'n', 'f'] := by
    simp [significantText, magnitudeText, hnan, hfinite]
  have hmarks : marksFloat (x.significantText floatLayout) = true := by
    rw [marksFloat, htext, List.any_append]
    exact Bool.or_true _
  rw [floatText, if_pos hmarks, htext]

theorem read?_floatText_infinite
    (hnan : x.isNaN = false)
    (hfinite : x.isFinite = false) :
    read? (floatText x).toList = none := by
  rw [toList_floatText_infinite hnan hfinite, signText]
  split <;> rfl

/-- Numbers with the same text are the same, bit for bit. -/
theorem floatText_inj
    (hx : x.isNaN = false)
    (hy : y.isNaN = false)
    (h : floatText x = floatText y) :
    x = y := by
  have htext : (floatText x).toList = (floatText y).toList := congrArg String.toList h
  by_cases hfinite : x.isFinite = true
  · obtain ⟨q, hread, hnearest⟩ := read?_floatText hfinite
    rw [htext] at hread
    by_cases hfinite' : y.isFinite = true
    · obtain ⟨q', hread', hnearest'⟩ := read?_floatText hfinite'
      obtain ⟨hsign, rfl⟩ := Reading.mk.inj (Option.some.inj (hread.symm.trans hread'))
      rw [← hsign] at hnearest'
      exact ((hnearest y).mp ((hnearest' y).mpr rfl)).symm
    · rw [read?_floatText_infinite hy (Bool.eq_false_of_not_eq_true hfinite')] at hread
      cases hread
  · have hinfinite := Bool.eq_false_of_not_eq_true hfinite
    by_cases hfinite' : y.isFinite = true
    · obtain ⟨q', hread', _⟩ := read?_floatText hfinite'
      rw [← htext, read?_floatText_infinite hx hinfinite] at hread'
      cases hread'
    · have hinfinite' := Bool.eq_false_of_not_eq_true hfinite'
      rw [toList_floatText_infinite hx hinfinite, toList_floatText_infinite hy hinfinite'] at htext
      have hsign := isNegative_eq_of_signText (List.append_cancel_right htext)
      exact eq_of_infinite hsign hx hy hinfinite hinfinite'

/-- The characters of a number's text. -/
theorem mem_floatText
    (hnan : x.isNaN = false) :
    ∀ c ∈ (floatText x).toList, c.isDigit = true ∨ c ∈ ['.', 'e', '+', '-', 'i', 'n', 'f'] := by
  have hsign : ∀ c ∈ x.signText, c.isDigit = true ∨ c ∈ ['.', 'e', '+', '-', 'i', 'n', 'f'] := by
    intro c hc
    rw [eq_minus_of_mem_signText c hc]
    decide
  cases hfinite : x.isFinite with
  | true =>
      obtain ⟨n, htext, _, _⟩ := exists_numeral_floatText hfinite
      rw [htext]
      refine List.forall_mem_append.mpr ⟨hsign, fun c hc => ?_⟩
      exact (n.mem_text c hc).imp_right fun h => List.mem_append_left ['i', 'n', 'f'] h
  | false =>
      rw [toList_floatText_infinite hnan hfinite]
      exact List.forall_mem_append.mpr ⟨hsign, fun c hc => Or.inr (List.mem_append_right ['.', 'e', '+', '-'] hc)⟩

/-- A number's text shows that it is no integer. -/
theorem exists_mark_floatText
    (hnan : x.isNaN = false) :
    ∃ c ∈ (floatText x).toList, c ∈ ['.', 'e', 'n'] := by
  cases hfinite : x.isFinite with
  | true =>
      obtain ⟨n, htext, _, hpoint | hletter⟩ := exists_numeral_floatText hfinite
      · exact ⟨'.', by rw [htext]; exact List.mem_append_right _ hpoint, by decide⟩
      · exact ⟨'e', by rw [htext]; exact List.mem_append_right _ hletter, by decide⟩
  | false =>
      exact ⟨'n', by rw [toList_floatText_infinite hnan hfinite]; simp, by decide⟩

end Injectivity

end Value

end ThreeAddress
