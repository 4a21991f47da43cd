import Mathlib
import ThreeAddress.Decimal.Scientific

/-!
# Rounding to significant digits

A positive quotient starts at the power of ten that `leadingExponent` finds, so with as many
digits as asked for it is off by at most half a unit of the last digit.  Relative to the quotient
this is at most half of a power of ten that only the number of digits decides
(`Scientific.ofQuotient_error`), whether or not the digits are carried into a new decade.
-/

namespace ThreeAddress

namespace Decimal

section Definitions

/-- The number that a decimal with a number of significant digits stands for. -/
def Scientific.value (digits : Nat) (d : Scientific) : ℚ :=
  d.coefficient * 10 ^ (d.exponent - (digits - 1))

end Definitions

section Digits

variable {n : Nat}

theorem digitCount_pos
    (n : Nat) :
    0 < digitCount n :=
  Nat.length_toDigits_pos

theorem lt_pow_digitCount
    (n : Nat) :
    n < 10 ^ digitCount n :=
  (Nat.length_toDigits_le_iff (by decide) (digitCount_pos n)).mp (Nat.le_refl _)

theorem pow_le_of_digitCount_eq
    {k : Nat}
    (hn : 0 < n)
    (hk : digitCount n = k + 1) :
    10 ^ k ≤ n := by
  cases k with
  | zero =>
      exact hn
  | succ k =>
      refine Nat.le_of_not_lt fun hlt => ?_
      have hle := (Nat.length_toDigits_le_iff (by decide) (Nat.succ_pos k)).mpr hlt
      rw [← digitCount, hk] at hle
      omega

/-- A natural between two powers of ten has the digits that lie between them. -/
theorem digitCount_eq_of_bounds
    {k : Nat}
    (hle : 10 ^ k ≤ n)
    (hlt : n < 10 ^ (k + 1)) :
    digitCount n = k + 1 := by
  refine Nat.le_antisymm
    ((Nat.length_toDigits_le_iff (by decide) (Nat.succ_pos k)).mpr hlt) ?_
  refine Nat.lt_of_not_le fun hcount => ?_
  have hpow := Nat.pow_le_pow_right (show 0 < 10 by decide) hcount
  have hn := lt_pow_digitCount n
  omega

end Digits

section Quotients

variable {num den : Nat}

/-- A positive quotient lies between the power of ten it starts at and the next one. -/
theorem leadingExponent_spec
    (hnum : 0 < num)
    (hden : 0 < den) :
    (10 : ℚ) ^ leadingExponent num den ≤ num / den ∧
      (num : ℚ) / den < 10 ^ (leadingExponent num den + 1) := by
  have hden' : (0 : ℚ) < den := by exact_mod_cast hden
  rw [le_div_iff₀ hden', div_lt_iff₀ hden']
  by_cases hle : den ≤ num
  · obtain ⟨k, hk⟩ := Nat.exists_eq_succ_of_ne_zero (digitCount_pos (num / den)).ne'
    have hexponent : leadingExponent num den = (k : ℤ) := by
      rw [leadingExponent, if_pos hle, hk]
      push_cast
      omega
    have hlow := pow_le_of_digitCount_eq (Nat.div_pos hle hden) hk
    have hhigh := lt_pow_digitCount (num / den)
    rw [hk] at hhigh
    rw [Nat.le_div_iff_mul_le hden] at hlow
    rw [Nat.div_lt_iff_lt_mul hden] at hhigh
    rw [hexponent]
    exact ⟨by exact_mod_cast hlow, by exact_mod_cast hhigh⟩
  · -- A quotient below one: the tens that it takes to reach one are counted.
    obtain ⟨k, hk⟩ := Nat.exists_eq_succ_of_ne_zero (digitCount_pos ((den - 1) / num)).ne'
    have hexponent : leadingExponent num den = -((k : ℤ) + 1) := by
      rw [leadingExponent, if_neg hle, hk]
      push_cast
      rfl
    have hpos : 0 < (den - 1) / num := Nat.div_pos (by omega) hnum
    have hlow := pow_le_of_digitCount_eq hpos hk
    have hhigh := lt_pow_digitCount ((den - 1) / num)
    rw [hk] at hhigh
    rw [Nat.le_div_iff_mul_le hnum] at hlow
    rw [Nat.div_lt_iff_lt_mul hnum, Nat.succ_eq_add_one] at hhigh
    have hreach : den ≤ 10 ^ (k + 1) * num := by omega
    have hshort : 10 ^ k * num < den := by omega
    have hten : (10 : ℚ) ^ (-((k : ℤ) + 1)) = (10 ^ (k + 1))⁻¹ := by
      rw [zpow_neg]
      norm_cast
    have hten' : (10 : ℚ) ^ (-((k : ℤ) + 1) + 1) = (10 ^ k)⁻¹ := by
      rw [show -((k : ℤ) + 1) + 1 = -(k : ℤ) by omega, zpow_neg, zpow_natCast]
    rw [hexponent, hten, hten', inv_mul_le_iff₀ (by positivity), lt_inv_mul_iff₀ (by positivity)]
    exact ⟨by exact_mod_cast hreach, by exact_mod_cast hshort⟩

/-- The nearest integer is off by at most half the denominator. -/
theorem nearestEven_bounds
    (num : Nat)
    (hden : 0 < den) :
    2 * num ≤ (2 * nearestEven num den + 1) * den ∧
      2 * nearestEven num den * den ≤ 2 * num + den := by
  have hsplit := Nat.div_add_mod num den
  have hlt := Nat.mod_lt num hden
  have hexpand : ∀ c, (2 * c + 1) * den = 2 * (den * c) + den ∧ 2 * c * den = 2 * (den * c) := by
    intro c
    constructor <;> ring
  rw [(hexpand _).1, (hexpand _).2]
  simp only [nearestEven]
  split_ifs <;> (try rw [Nat.mul_add_one]) <;> omega

theorem nearestEven_error
    (num : Nat)
    (hden : 0 < den) :
    |(nearestEven num den : ℚ) - num / den| ≤ 1 / 2 := by
  have hden' : (0 : ℚ) < den := by exact_mod_cast hden
  obtain ⟨hlow, hhigh⟩ := nearestEven_bounds num hden
  have hlow' : 2 * (num : ℚ) ≤ (2 * nearestEven num den + 1) * den := by exact_mod_cast hlow
  have hhigh' : 2 * (nearestEven num den : ℚ) * den ≤ 2 * num + den := by exact_mod_cast hhigh
  have hle : (num : ℚ) / den ≤ nearestEven num den + 1 / 2 := by
    rw [div_le_iff₀ hden']
    linarith
  have hge : (nearestEven num den : ℚ) - 1 / 2 ≤ num / den := by
    rw [le_div_iff₀ hden']
    linarith
  rw [abs_le]
  constructor <;> linarith

theorem nearestEven_le
    {m : Nat}
    (hden : 0 < den)
    (hm : num ≤ m * den) :
    nearestEven num den ≤ m := by
  have hhigh := (nearestEven_bounds num hden).2
  have hlt : 2 * nearestEven num den * den < 2 * (m + 1) * den := by
    have hexpand : 2 * (m + 1) * den = 2 * (m * den) + 2 * den := by ring
    omega
  have hcoefficient := Nat.lt_of_mul_lt_mul_right hlt
  omega

theorem le_nearestEven
    {m : Nat}
    (hden : 0 < den)
    (hm : m * den ≤ num) :
    m ≤ nearestEven num den := by
  have hlow := (nearestEven_bounds num hden).1
  have hlt : 2 * m * den < (2 * nearestEven num den + 2) * den := by
    have hexpand : 2 * m * den = 2 * (m * den) := by ring
    have hexpand' : (2 * nearestEven num den + 2) * den =
        (2 * nearestEven num den + 1) * den + den := by ring
    omega
  have hcoefficient := Nat.lt_of_mul_lt_mul_right hlt
  omega

/-- Powers of ten with positive exponents on both sides of a quotient scale it. -/
theorem scaled_quotient
    (num den : Nat)
    (shift : ℤ) :
    ((num * 10 ^ shift.toNat : Nat) : ℚ) / (den * 10 ^ (-shift).toNat : Nat) =
      num / den * 10 ^ shift := by
  rcases Int.le_total 0 shift with hshift | hshift
  · obtain ⟨n, rfl⟩ := Int.eq_ofNat_of_zero_le hshift
    simp [mul_div_right_comm]
  · obtain ⟨n, hn⟩ := Int.eq_ofNat_of_zero_le (Int.neg_nonneg_of_nonpos hshift)
    obtain rfl : shift = -(n : ℤ) := by omega
    simp [div_eq_mul_inv, mul_assoc, mul_comm (10 ^ n : ℚ)⁻¹]

namespace Scientific

variable {digits : Nat}

/--
The digits of a quotient are those of the integer next to the scaled quotient, which has as many
digits as asked for, or is the next power of ten.
-/
theorem exists_ofQuotient
    (hdigits : 0 < digits)
    (hnum : 0 < num)
    (hden : 0 < den) :
    ∃ coefficient : Nat,
      let exponent := leadingExponent num den
      10 ^ (digits - 1) ≤ coefficient ∧ coefficient ≤ 10 ^ digits ∧
      |(coefficient : ℚ) - num / den * 10 ^ (digits - 1 - exponent)| ≤ 1 / 2 ∧
      ofQuotient digits num den =
        if coefficient < 10 ^ digits then ⟨coefficient, exponent⟩
        else ⟨10 ^ (digits - 1), exponent + 1⟩ := by
  let exponent := leadingExponent num den
  let shift : ℤ := digits - 1 - exponent
  let scaledNum := num * 10 ^ shift.toNat
  let scaledDen := den * 10 ^ (-shift).toNat
  have hscaledDen : 0 < scaledDen := Nat.mul_pos hden (Nat.pow_pos (by decide))
  have hscaledDen' : (0 : ℚ) < scaledDen := by exact_mod_cast hscaledDen
  have hscaled : (scaledNum : ℚ) / scaledDen = num / den * 10 ^ shift :=
    scaled_quotient num den shift
  obtain ⟨hlow, hhigh⟩ := leadingExponent_spec hnum hden
  have hten : (0 : ℚ) < 10 ^ shift := by positivity
  have hlow' : ((10 ^ (digits - 1) : Nat) : ℚ) ≤ scaledNum / scaledDen := by
    rw [hscaled, ← div_le_iff₀ hten]
    refine le_trans (le_of_eq ?_) hlow
    push_cast
    rw [← zpow_natCast, ← zpow_sub₀ (by norm_num)]
    congr 1
    omega
  have hhigh' : (scaledNum : ℚ) / scaledDen < (10 ^ digits : Nat) := by
    rw [hscaled, ← lt_div_iff₀ hten]
    refine lt_of_lt_of_eq hhigh ?_
    push_cast
    rw [← zpow_natCast, ← zpow_sub₀ (by norm_num)]
    congr 1
    omega
  rw [le_div_iff₀ hscaledDen'] at hlow'
  rw [div_lt_iff₀ hscaledDen'] at hhigh'
  refine ⟨nearestEven scaledNum scaledDen, ?_, ?_, ?_, rfl⟩
  · exact le_nearestEven hscaledDen (by exact_mod_cast hlow')
  · exact nearestEven_le hscaledDen (by exact_mod_cast hhigh'.le)
  · rw [← hscaled]
    exact nearestEven_error scaledNum hscaledDen

/-- The coefficient of a positive quotient has as many digits as asked for. -/
theorem coefficient_ofQuotient
    (hdigits : 0 < digits)
    (hnum : 0 < num)
    (hden : 0 < den) :
    10 ^ (digits - 1) ≤ (ofQuotient digits num den).coefficient ∧
      (ofQuotient digits num den).coefficient < 10 ^ digits := by
  obtain ⟨coefficient, hlow, _, _, hquotient⟩ := exists_ofQuotient hdigits hnum hden
  rw [hquotient]
  split
  · rename_i hlt
    exact ⟨hlow, hlt⟩
  · exact ⟨Nat.le_refl _, Nat.pow_lt_pow_right (by decide) (by omega)⟩

/-- A decimal is off by at most half a unit of its last digit, relative to the quotient. -/
theorem ofQuotient_error
    (hdigits : 0 < digits)
    (hnum : 0 < num)
    (hden : 0 < den) :
    2 * 10 ^ (digits - 1) * |(ofQuotient digits num den).value digits - num / den| ≤
      (num : ℚ) / den := by
  obtain ⟨coefficient, hlow, hhigh, herror, hquotient⟩ := exists_ofQuotient hdigits hnum hden
  obtain ⟨hstart, _⟩ := leadingExponent_spec hnum hden
  generalize leadingExponent num den = exponent at *
  let unit : ℚ := 10 ^ (exponent - (digits - 1))
  have hunit : 0 < unit := by positivity
  -- A carry into the next decade does not change the number that the digits stand for.
  have hvalue : (ofQuotient digits num den).value digits = coefficient * unit := by
    rw [hquotient]
    split
    · rfl
    · have hcarry : coefficient = 10 ^ digits := by omega
      rw [value, hcarry]
      push_cast
      rw [← zpow_natCast, ← zpow_natCast, ← zpow_add₀ (by norm_num), ← zpow_add₀ (by norm_num)]
      congr 1
      omega
  have hscale : (10 : ℚ) ^ ((digits : ℤ) - 1 - exponent) = unit⁻¹ := by
    rw [← zpow_neg, neg_sub]
  have hsame : coefficient * unit - num / den =
      (coefficient - num / den * unit⁻¹) * unit := by
    field_simp
  rw [hscale] at herror
  rw [hvalue, hsame, abs_mul, abs_of_pos hunit]
  calc 2 * 10 ^ (digits - 1) * (|coefficient - num / den * unit⁻¹| * unit)
      ≤ 2 * 10 ^ (digits - 1) * (1 / 2 * unit) := by gcongr
    _ = 10 ^ exponent := by
      rw [mul_mul_mul_comm, mul_one_div_cancel (by norm_num), one_mul, ← zpow_natCast,
        ← zpow_add₀ (by norm_num)]
      congr 1
      omega
    _ ≤ num / den := hstart

end Scientific

end Quotients

end Decimal

end ThreeAddress
