import ThreeAddress.Builder.Build
import ThreeAddress.Proofs.Calls
import ThreeAddress.Proofs.Lossless

/-!
# Numbers as integer constants

A type that is not floating-point takes the numbers that are integers of 64 bits.  Whether a number
is one shows in operations on floating-point numbers alone: it is finite, rounding it toward zero
leaves it as it is, and it lies between the two bounds, which are floating-point numbers themselves.
Comparison of patterns is comparison of exact values (`Binary64.less_iff`, `Binary64.equals_iff`),
and clearing the bits behind the point gives the integer part (`Binary64.value_truncated`), so these
checks pass for the integers in the range and for nothing else (`Binary64.passesChecks_iff`).

`Build.constant_exact` says what the call returns for every type and every pattern.
-/

namespace ThreeAddress

namespace Binary64

section Definitions

/-- The exact value of a finite number. -/
def value (x : Binary64) : ℚ :=
  (if x.isNegative then -1 else 1) * (x.significand * 2 ^ ((x.scaleField : ℤ) - 1075))

/-- A pattern without its sign; the greater it is, the greater the absolute value. -/
def rank (x : Binary64) : Nat :=
  x.bits.toNat % signWeight

/-- The place of a pattern in the order of numbers; the two zeros share theirs. -/
def place (x : Binary64) : ℤ :=
  if x.isNegative then -x.rank else x.rank

/-- Comparison of numbers; a NaN is neither less nor greater than anything. -/
def less (x y : Binary64) : Bool :=
  !x.isNaN && !y.isNaN && decide (x.place < y.place)

/--
The number of bits that stand behind the point.  Below one these are all bits but the sign.
-/
def bitsBehindPoint (x : Binary64) : Nat :=
  if x.exponentField < 1023 then 63 else 1075 - x.exponentField

/-- A number rounded toward zero: the bits behind the point are cleared. -/
def truncated (x : Binary64) : Binary64 :=
  ⟨UInt64.ofNat (x.bits.toNat - x.bits.toNat % 2 ^ x.bitsBehindPoint)⟩

/-- The integer to which a finite number is converted, toward zero. -/
def integerPart (x : Binary64) : ℤ :=
  if x.isNegative then -((x.numerator / x.denominator : Nat) : ℤ)
  else (x.numerator / x.denominator : Nat)

/-- The least integer of 64 bits, as a floating-point number. -/
def lowest : Binary64 := ⟨0xc3e0000000000000⟩

/-- The first integer beyond 64 bits, as a floating-point number. -/
def limit : Binary64 := ⟨0x43e0000000000000⟩

/-- The checks that let a number be converted, made on floating-point numbers. -/
structure PassesChecks (x : Binary64) : Prop where
  isFinite_eq : x.isFinite = true
  truncated_equals : x.truncated.equals x = true
  not_less_lowest : x.less lowest = false
  not_limit_le : (limit.less x || limit.equals x) = false

/-- The number is exactly this integer, and the integer has 64 bits. -/
structure IsInt64 (x : Binary64) (n : ℤ) : Prop where
  isFinite_eq : x.isFinite = true
  value_eq : x.value = n
  lowest_le : -2 ^ 63 ≤ n
  lt_limit : n < 2 ^ 63

end Definitions

section Values

variable {x y : Binary64}

/-- The exact value in units of the least subnormal. -/
def signedScaled (x : Binary64) : ℤ :=
  if x.isNegative then -x.scaled else x.scaled

/-- A significand under a power of two, in units of a power that is fine enough. -/
theorem scaled_zpow
    (m k : Nat)
    {s : Nat}
    (hs : 1 ≤ s) :
    (m : ℚ) * 2 ^ ((s : ℤ) - (k + 1)) = (m * 2 ^ (s - 1) : Nat) / 2 ^ k := by
  rw [eq_div_iff (by positivity), mul_assoc, ← zpow_natCast, ← zpow_add₀ (by norm_num)]
  push_cast
  rw [← zpow_natCast]
  congr 2
  omega

theorem value_eq_signedScaled
    (x : Binary64) :
    x.value = x.signedScaled / 2 ^ 1074 := by
  have hscaled : (x.significand : ℚ) * 2 ^ ((x.scaleField : ℤ) - 1075) = x.scaled / 2 ^ 1074 :=
    scaled_zpow x.significand 1074 x.one_le_scaleField
  rw [value, hscaled, signedScaled]
  split
  · rw [Int.cast_neg, Int.cast_natCast, neg_div, neg_one_mul]
  · rw [Int.cast_natCast, one_mul]

/-- The absolute value is the quotient of the numerator and the denominator. -/
theorem value_eq_magnitude
    (x : Binary64) :
    x.value = if x.isNegative then -x.magnitude else x.magnitude := by
  rw [value_eq_signedScaled, signedScaled, magnitude_eq]
  split
  · rw [Int.cast_neg, Int.cast_natCast, neg_div]
  · rw [Int.cast_natCast]

theorem value_lt_iff :
    x.value < y.value ↔ x.signedScaled < y.signedScaled := by
  rw [value_eq_signedScaled, value_eq_signedScaled, div_lt_div_iff_of_pos_right (by positivity),
    Int.cast_lt]

theorem value_eq_iff :
    x.value = y.value ↔ x.signedScaled = y.signedScaled := by
  rw [value_eq_signedScaled, value_eq_signedScaled, div_left_inj' (by positivity), Int.cast_inj]

end Values

section Order

variable {x y : Binary64}

theorem rank_eq
    (x : Binary64) :
    x.rank = x.exponentField * 2 ^ 52 + x.fraction := by
  have hbits := x.bits.toNat_lt
  simp only [rank, signWeight, exponentField, fraction, leadingWeight]
  omega

/-- Of two patterns of one sign, the greater one is the number with the greater absolute value. -/
theorem scaled_lt_of_rank_lt
    (h : x.rank < y.rank) :
    x.scaled < y.scaled := by
  have hx := x.fraction_lt
  have hy := y.fraction_lt
  rw [rank_eq, rank_eq] at h
  simp only [leadingWeight] at hx hy
  rcases Nat.lt_trichotomy x.scaleField y.scaleField with hlt | heq | hlt
  · obtain ⟨a, b, u, hxu, hyu, ha, hb⟩ := exists_units_of_scaleField_lt hlt
    have hunit : 0 < u := by
      refine Nat.pos_of_ne_zero ?_
      rintro rfl
      have hzero := scaled_eq_zero_iff.mp hyu
      simp only [isZero, Bool.and_eq_true, beq_iff_eq] at hzero
      omega
    rw [hxu, hyu]
    exact Nat.mul_lt_mul_of_pos_right (by omega) hunit
  · rw [scaled, scaled, heq]
    refine Nat.mul_lt_mul_of_pos_right ?_ (Nat.pow_pos (by decide))
    simp only [scaleField] at heq
    simp only [significand, leadingWeight]
    split <;> split <;> omega
  · simp only [scaleField] at hlt
    omega

theorem scaled_lt_iff :
    x.scaled < y.scaled ↔ x.rank < y.rank := by
  refine ⟨fun h => ?_, scaled_lt_of_rank_lt⟩
  rcases Nat.lt_trichotomy x.rank y.rank with hlt | heq | hlt
  · exact hlt
  · have hx := x.fraction_lt
    have hy := y.fraction_lt
    rw [rank_eq, rank_eq] at heq
    simp only [leadingWeight] at hx hy
    have hexponent : x.exponentField = y.exponentField := by omega
    have hfraction : x.fraction = y.fraction := by omega
    simp only [scaled, significand, scaleField, hexponent, hfraction] at h
    exact absurd h (Nat.lt_irrefl _)
  · exact absurd (scaled_lt_of_rank_lt hlt) (Nat.lt_asymm h)

theorem scaled_pos_iff :
    0 < x.scaled ↔ 0 < x.rank := by
  have hzero := scaled_lt_iff (x := ⟨0⟩) (y := x)
  exact hzero

theorem signedScaled_lt_iff :
    x.signedScaled < y.signedScaled ↔ x.place < y.place := by
  have hxy := scaled_lt_iff (x := x) (y := y)
  have hyx := scaled_lt_iff (x := y) (y := x)
  have hx := scaled_pos_iff (x := x)
  have hy := scaled_pos_iff (x := y)
  simp only [signedScaled, place]
  split <;> split <;> omega

/-- Patterns of finite numbers are compared as their exact values are. -/
theorem less_iff
    (hx : x.isFinite = true)
    (hy : y.isFinite = true) :
    x.less y = true ↔ x.value < y.value := by
  rw [value_lt_iff, signedScaled_lt_iff]
  simp [less, isNaN_of_isFinite hx, isNaN_of_isFinite hy]

/-- Finite numbers are equal when their exact values are. -/
theorem equals_iff
    (hx : x.isFinite = true)
    (hy : y.isFinite = true) :
    x.equals y = true ↔ x.value = y.value := by
  have hzero := scaled_eq_zero_iff (x := x)
  have hzero' := scaled_eq_zero_iff (x := y)
  rw [value_eq_iff]
  simp only [equals, isNaN_of_isFinite hx, isNaN_of_isFinite hy, Bool.not_false, Bool.true_and,
    Bool.or_eq_true, beq_iff_eq, Bool.and_eq_true, ← hzero, ← hzero']
  constructor
  · rintro (rfl | ⟨hx, hy⟩)
    · rfl
    · simp [signedScaled, hx, hy]
  · intro h
    by_cases hsign : x.isNegative = y.isNegative
    · refine Or.inl (eq_of_scaled_eq hsign ?_)
      simp only [signedScaled, hsign] at h
      split at h <;> omega
    · refine Or.inr ?_
      simp only [signedScaled] at h
      cases hn : x.isNegative <;> cases hm : y.isNegative <;> simp [hn, hm] at hsign h <;> omega

end Order

section Truncation

variable {x : Binary64}

theorem toNat_truncated
    (x : Binary64) :
    x.truncated.bits.toNat = x.bits.toNat - x.bits.toNat % 2 ^ x.bitsBehindPoint := by
  have hbits := x.bits.toNat_lt
  rw [truncated, UInt64.toNat_ofNat', Nat.mod_eq_of_lt (by omega)]

/-- Below one nothing but the sign is left. -/
theorem rank_truncated_of_lt
    (hexponent : x.exponentField < 1023) :
    x.truncated.rank = 0 ∧ x.truncated.isNegative = x.isNegative := by
  have hbits := x.bits.toNat_lt
  have hnat := x.toNat_truncated
  rw [bitsBehindPoint, if_pos hexponent] at hnat
  constructor
  · simp only [rank, signWeight]
    omega
  · rw [isNegative, isNegative, decide_eq_decide]
    simp only [signWeight]
    omega

/-- From one on the sign and the exponent stay, and bits of the significand are cleared. -/
theorem fields_truncated_of_le
    (hexponent : 1023 ≤ x.exponentField) :
    x.truncated.isNegative = x.isNegative ∧ x.truncated.exponentField = x.exponentField ∧
      x.truncated.fraction = x.fraction - x.fraction % 2 ^ (1075 - x.exponentField) := by
  have hnat := x.toNat_truncated
  rw [bitsBehindPoint, if_neg (Nat.not_lt.mpr hexponent)] at hnat
  generalize hp : 2 ^ (1075 - x.exponentField) = p at hnat ⊢
  -- The cleared bits are some of the fraction's.
  obtain ⟨q, hq⟩ : ∃ q, leadingWeight = p * q :=
    hp ▸ Nat.pow_dvd_pow 2 (by omega : 1075 - x.exponentField ≤ 52)
  have hcleared : x.truncated.bits.toNat = p * (x.bits.toNat / p) := by
    have hsplit := Nat.div_add_mod x.bits.toNat p
    omega
  have hquotient : x.truncated.bits.toNat / leadingWeight = x.bits.toNat / leadingWeight := by
    have hpositive : 0 < p := hp ▸ Nat.two_pow_pos _
    rw [hcleared, hq, Nat.mul_div_mul_left _ _ hpositive, Nat.div_div_eq_div_mul]
  have hremainder : x.fraction % p = x.bits.toNat % p :=
    Nat.mod_mod_of_dvd _ ⟨q, hq⟩
  have hle := Nat.mod_le x.fraction p
  refine ⟨?_, ?_, ?_⟩
  · rw [isNegative, isNegative, decide_eq_decide]
    simp only [signWeight]
    simp only [leadingWeight] at hquotient
    omega
  · rw [exponentField, exponentField, hquotient]
  · rw [hremainder] at hle ⊢
    simp only [fraction, leadingWeight] at hquotient hle ⊢
    omega

theorem isNegative_truncated
    (x : Binary64) :
    x.truncated.isNegative = x.isNegative := by
  rcases Nat.lt_or_ge x.exponentField 1023 with hlt | hle
  · exact (rank_truncated_of_lt hlt).2
  · exact (fields_truncated_of_le hle).1

theorem isFinite_truncated
    (hfinite : x.isFinite = true) :
    x.truncated.isFinite = true := by
  rw [isFinite, bne_iff_ne] at hfinite ⊢
  rcases Nat.lt_or_ge x.exponentField 1023 with hlt | hle
  · have hrank := (rank_truncated_of_lt hlt).1
    rw [rank_eq] at hrank
    omega
  · rwa [(fields_truncated_of_le hle).2.1]

/-- The significand without the bits behind the point. -/
theorem numerator_truncated
    (hexponent : 1023 ≤ x.exponentField) :
    x.truncated.numerator = x.denominator * (x.numerator / x.denominator) ∧
      x.truncated.denominator = x.denominator := by
  obtain ⟨-, hsame, hfraction⟩ := fields_truncated_of_le hexponent
  have hscale : x.scaleField = x.exponentField := Nat.max_eq_right (by omega)
  have hscale' : x.truncated.scaleField = x.exponentField := by
    rw [scaleField, hsame]
    exact hscale
  have hpositive : x.exponentField ≠ 0 := by omega
  have hsignificand : x.truncated.significand =
      x.significand - x.significand % 2 ^ (1075 - x.exponentField) := by
    have hle := Nat.mod_le x.fraction (2 ^ (1075 - x.exponentField))
    obtain ⟨q, hq⟩ : 2 ^ (1075 - x.exponentField) ∣ leadingWeight :=
      Nat.pow_dvd_pow 2 (by omega : 1075 - x.exponentField ≤ 52)
    have hmod : (leadingWeight + x.fraction) % 2 ^ (1075 - x.exponentField) =
        x.fraction % 2 ^ (1075 - x.exponentField) := by
      rw [hq, Nat.mul_add_mod]
    rw [significand, significand, hsame, if_neg hpositive, if_neg hpositive, hfraction, hmod]
    omega
  refine ⟨?_, by rw [denominator, denominator, hscale, hscale']⟩
  rw [numerator, numerator, denominator, hscale, hscale', hsignificand, Nat.pow_eq, Nat.pow_eq]
  rcases Nat.le_total x.exponentField 1075 with hle | hle
  · have hsplit := Nat.div_add_mod x.significand (2 ^ (1075 - x.exponentField))
    rw [Nat.sub_eq_zero_of_le hle, Nat.pow_zero, Nat.mul_one, Nat.mul_one]
    omega
  · rw [Nat.sub_eq_zero_of_le hle, Nat.pow_zero, Nat.mod_one, Nat.sub_zero, Nat.div_one,
      Nat.one_mul]

/-- Below one the integer part is zero. -/
theorem numerator_lt_denominator
    (hexponent : x.exponentField < 1023) :
    x.numerator < x.denominator := by
  have hscale : x.scaleField ≤ 1022 := Nat.max_le.mpr ⟨by decide, by omega⟩
  rw [numerator, denominator, Nat.sub_eq_zero_of_le (by omega), Nat.pow_eq, Nat.pow_eq,
    Nat.pow_zero, Nat.mul_one]
  exact x.significand_lt.trans_le (Nat.pow_le_pow_right (by decide) (by omega))

theorem magnitude_truncated
    (x : Binary64) :
    x.truncated.magnitude = (x.numerator / x.denominator : Nat) := by
  rcases Nat.lt_or_ge x.exponentField 1023 with hlt | hle
  · have hzero : x.truncated.scaled = 0 := by
      have hrank := (rank_truncated_of_lt hlt).1
      have hpositive := scaled_pos_iff (x := x.truncated)
      omega
    rw [magnitude_eq, hzero, Nat.div_eq_of_lt (numerator_lt_denominator hlt), Nat.cast_zero,
      zero_div]
  · obtain ⟨hnumerator, hdenominator⟩ := numerator_truncated hle
    have hne : (x.denominator : ℚ) ≠ 0 := Nat.cast_ne_zero.mpr x.denominator_pos.ne'
    rw [magnitude, hnumerator, hdenominator, Nat.cast_mul, mul_div_cancel_left₀ _ hne]

/-- Clearing the bits behind the point gives the integer part. -/
theorem value_truncated
    (x : Binary64) :
    x.truncated.value = x.integerPart := by
  rw [value_eq_magnitude, isNegative_truncated, magnitude_truncated, integerPart]
  split <;> push_cast <;> rfl

end Truncation

section Integers

variable {x : Binary64} {n : ℤ}

/-- A number without anything behind the point is its integer part. -/
theorem value_eq_integerPart_iff :
    x.value = x.integerPart ↔ x.numerator % x.denominator = 0 := by
  have hne : (x.denominator : ℚ) ≠ 0 := Nat.cast_ne_zero.mpr x.denominator_pos.ne'
  have hmagnitude : x.magnitude = (x.numerator / x.denominator : Nat) ↔
      x.numerator % x.denominator = 0 := by
    have hsplit := Nat.div_add_mod' x.numerator x.denominator
    rw [magnitude, div_eq_iff hne, ← Nat.cast_mul, Nat.cast_inj]
    generalize x.numerator / x.denominator * x.denominator = multiple at hsplit ⊢
    omega
  rw [← hmagnitude, value_eq_magnitude, integerPart]
  split
  · rw [Int.cast_neg, Int.cast_natCast, neg_inj]
  · rw [Int.cast_natCast]

/-- The integer part of an integer is the integer. -/
theorem integerPart_of_value_eq
    (hvalue : x.value = n) :
    x.integerPart = n := by
  have hne : (x.denominator : ℚ) ≠ 0 := Nat.cast_ne_zero.mpr x.denominator_pos.ne'
  have hquotient : ∀ m : ℕ, x.magnitude = m → x.numerator / x.denominator = m := by
    intro m hm
    rw [magnitude, div_eq_iff hne] at hm
    have hnumerator : x.numerator = m * x.denominator := by exact_mod_cast hm
    rw [hnumerator, Nat.mul_div_cancel _ x.denominator_pos]
  have hnonneg : 0 ≤ x.magnitude := div_nonneg (Nat.cast_nonneg _) (Nat.cast_nonneg _)
  rw [value_eq_magnitude] at hvalue
  unfold integerPart
  split at hvalue
  · obtain ⟨m, rfl⟩ : ∃ m : ℕ, n = -m := by
      refine Int.exists_eq_neg_ofNat ?_
      have hle : (n : ℚ) ≤ 0 := by linarith
      exact_mod_cast hle
    rw [if_pos ‹_›, hquotient m (by push_cast at hvalue; linarith)]
  · obtain ⟨m, rfl⟩ : ∃ m : ℕ, n = m := by
      refine Int.eq_ofNat_of_zero_le ?_
      have hle : (0 : ℚ) ≤ n := by linarith
      exact_mod_cast hle
    rw [if_neg ‹_›, hquotient m (by exact_mod_cast hvalue)]

/-- The integer that a number is, if it is one, is its exact value. -/
theorem toInt?_eq_some_iff :
    x.toInt? = some n ↔ x.isFinite = true ∧ x.value = n := by
  have htoInt : x.toInt? =
      if x.isFinite ∧ x.numerator % x.denominator = 0 then some x.integerPart else none :=
    rfl
  simp only [htoInt, ← value_eq_integerPart_iff]
  constructor
  · intro h
    split at h
    · rename_i hinteger
      cases h
      exact hinteger
    · cases h
  · rintro ⟨hfinite, hvalue⟩
    have hpart := integerPart_of_value_eq hvalue
    rw [if_pos ⟨hfinite, by rw [hpart, hvalue]⟩, hpart]

theorem value_lowest :
    lowest.value = -2 ^ 63 := by
  have hsignificand : lowest.significand = 2 ^ 52 := by decide
  have hscale : lowest.scaleField = 1086 := by decide
  have hsign : lowest.isNegative = true := by decide
  rw [value, hsignificand, hscale, if_pos hsign]
  norm_num

theorem value_limit :
    limit.value = 2 ^ 63 := by
  have hsignificand : limit.significand = 2 ^ 52 := by decide
  have hscale : limit.scaleField = 1086 := by decide
  have hsign : limit.isNegative ≠ true := by decide
  rw [value, hsignificand, hscale, if_neg hsign]
  norm_num

/-- The checks on floating-point numbers pass for the integers of 64 bits. -/
theorem passesChecks_iff :
    x.PassesChecks ↔ ∃ n, x.IsInt64 n := by
  have hlowest : lowest.isFinite = true := by decide
  have hlimit : limit.isFinite = true := by decide
  have hbelow : ∀ hfinite : x.isFinite = true, x.less lowest = false ↔ -2 ^ 63 ≤ x.value := by
    intro hfinite
    rw [← Bool.not_eq_true, less_iff hfinite hlowest, value_lowest, not_lt]
  have habove : ∀ hfinite : x.isFinite = true,
      (limit.less x || limit.equals x) = false ↔ x.value < 2 ^ 63 := by
    intro hfinite
    rw [← Bool.not_eq_true, Bool.or_eq_true, less_iff hlimit hfinite, equals_iff hlimit hfinite,
      value_limit, ← le_iff_lt_or_eq, not_le]
  constructor
  · intro h
    have hfinite := h.isFinite_eq
    have hvalue : x.integerPart = x.value := by
      rw [← value_truncated]
      exact (equals_iff (isFinite_truncated hfinite) hfinite).mp h.truncated_equals
    have hlow := (hbelow hfinite).mp h.not_less_lowest
    have hhigh := (habove hfinite).mp h.not_limit_le
    rw [← hvalue] at hlow hhigh
    exact ⟨x.integerPart, hfinite, hvalue.symm, by exact_mod_cast hlow, by exact_mod_cast hhigh⟩
  · rintro ⟨n, hfinite, hvalue, hlow, hhigh⟩
    refine ⟨hfinite, ?_, (hbelow hfinite).mpr ?_, (habove hfinite).mpr ?_⟩
    · rw [equals_iff (isFinite_truncated hfinite) hfinite, value_truncated,
        integerPart_of_value_eq hvalue, hvalue]
    · rw [hvalue]
      exact_mod_cast hlow
    · rw [hvalue]
      exact_mod_cast hhigh

end Integers

end Binary64

section Constants

open Binary64

variable {s : Bench} {type : Ty} {x : Binary64} {n : ℤ}

theorem Bench.constant_of_isInt64
    (htype : type.isFloatingPoint = false)
    (hx : x.IsInt64 n) :
    Bench.constant type x = .ok (.int type n) := by
  have hinteger := toInt?_eq_some_iff.mpr ⟨hx.isFinite_eq, hx.value_eq⟩
  have hrange : -integerBound ≤ n ∧ n < integerBound := ⟨hx.lowest_le, hx.lt_limit⟩
  simp [Bench.constant, htype, hinteger, hrange]

theorem Bench.constant_of_not_isInt64
    (htype : type.isFloatingPoint = false)
    (hx : ¬ ∃ n, x.IsInt64 n) :
    Bench.constant type x = .error (.notRepresentable x type) := by
  simp only [Bench.constant, htype, Bool.false_eq_true, if_false]
  split
  · rename_i n hinteger
    obtain ⟨hfinite, hvalue⟩ := toInt?_eq_some_iff.mp hinteger
    exact if_neg fun hrange => hx ⟨n, hfinite, hvalue, hrange.1, hrange.2⟩
  · rfl

/--
Numbers become constants exactly.

A floating-point type takes every pattern as it is.  Any other type takes a number exactly when it is
finite, an integer and in the range of 64 bits, and the constant is this integer; every other number
is refused at the builder's location, and the message names the number and the type.  No call changes
anything.  The checks on floating-point numbers pass for the same numbers, and what passes them is
converted to the integer that it is, in the range.
-/
theorem Build.constant_exact
    (s : Bench)
    (type : Ty)
    (x : Binary64) :
    (type.kind ∈ [.half, .float, .double] →
      Build.constant type x s = (.ok (.float type x), s)) ∧
    (type.kind ∉ [.half, .float, .double] →
      (∀ n, x.IsInt64 n → Build.constant type x s = (.ok (.int type n), s)) ∧
      ((¬ ∃ n, x.IsInt64 n) →
        ∃ error, Build.constant type x s = (.error error, s) ∧
          error.kind = .invalidArgument ∧ error.loc = s.builder.loc ∧
          error.message = (Fault.notRepresentable x type).message)) ∧
    (x.PassesChecks ↔ ∃ n, x.IsInt64 n) ∧
    (x.PassesChecks → x.IsInt64 x.integerPart) := by
  have hkind : type.isFloatingPoint = true ↔ type.kind ∈ [.half, .float, .double] := by
    simp [Ty.isFloatingPoint, or_assoc]
  rw [← hkind, Bool.not_eq_true]
  refine ⟨?_, ?_, passesChecks_iff, ?_⟩
  · intro htype
    simp [Build.constant, Bench.constant, htype]
  · intro htype
    constructor
    · intro n hx
      rw [Build.constant, Bench.constant_of_isInt64 htype hx, check_ok_apply]
    · intro hx
      rw [Build.constant, Bench.constant_of_not_isInt64 htype hx, check_error_apply]
      exact ⟨_, rfl, rfl, rfl, rfl⟩
  · intro hx
    obtain ⟨n, hn⟩ := passesChecks_iff.mp hx
    rwa [integerPart_of_value_eq hn.value_eq]

/--
At the bounds of the range: the least integer is taken and the first one beyond the range is refused.
The negative zero is the integer zero, and a half takes a NaN with its payload.
-/
theorem Build.constant_at_bounds :
    let s : Bench := ⟨{}, [], []⟩
    let negativeZero : Binary64 := ⟨0x8000000000000000⟩
    let nan : Binary64 := ⟨0xfff8000000000001⟩
    Build.constant (.int 64) lowest s = (.ok (.int (.int 64) (-2 ^ 63)), s) ∧
      Build.constant .label negativeZero s = (.ok (.int .label 0), s) ∧
      Build.constant .half nan s = (.ok (.float .half nan), s) ∧
      (∃ error, Build.constant (.int 64) limit s = (.error error, s) ∧
        error.kind = .invalidArgument) ∧
      lowest.PassesChecks ∧ lowest.IsInt64 lowest.integerPart := by
  intro s negativeZero nan
  have hlowest : lowest.IsInt64 (-2 ^ 63) := by
    refine ⟨by decide, ?_, by norm_num, by norm_num⟩
    rw [value_lowest]
    norm_num
  have hzero : negativeZero.IsInt64 0 := by
    refine ⟨by decide, ?_, by norm_num, by norm_num⟩
    have hsignificand : negativeZero.significand = 0 := by decide
    rw [value, hsignificand]
    simp
  have hlimit : ¬ ∃ n, limit.IsInt64 n := by
    rintro ⟨n, -, hvalue, -, hhigh⟩
    rw [value_limit] at hvalue
    have hn : (2 : ℤ) ^ 63 = n := by exact_mod_cast hvalue
    omega
  have hchecks := (Build.constant_exact s (.int 64) lowest).2.2
  refine ⟨?_, ?_, ?_, ?_, hchecks.1.mpr ⟨_, hlowest⟩, hchecks.2 (hchecks.1.mpr ⟨_, hlowest⟩)⟩
  · exact ((Build.constant_exact s (.int 64) lowest).2.1 (by decide)).1 _ hlowest
  · exact ((Build.constant_exact s .label negativeZero).2.1 (by decide)).1 _ hzero
  · exact (Build.constant_exact s .half nan).1 (by decide)
  · obtain ⟨error, hcall, hkind, _⟩ :=
      ((Build.constant_exact s (.int 64) limit).2.1 (by decide)).2 hlimit
    exact ⟨error, hcall, hkind⟩

end Constants

end ThreeAddress
