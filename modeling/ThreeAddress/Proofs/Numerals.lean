import ThreeAddress.Proofs.SignificantDigits
import ThreeAddress.Proofs.Texts

/-!
# Reading decimal numerals

`read?` reads a numeral exactly: a sign, digits with or without a point, and a power of ten or none.
The layouts of a decimal with significant digits are numerals, and what is read is the number that
the decimal stands for (`Scientific.exists_numeral`): positionally below and above the point, and
with a power of ten.  Digits that are left out at the end are made up for by the place of the point.
-/

namespace ThreeAddress

namespace Decimal

open Texts

section Definitions

/-- A number as it is read. -/
structure Reading where
  negative : Bool
  magnitude : ℚ

/-- The natural that digits stand for. -/
def natural (digits : List Char) : Nat :=
  Nat.ofDigitChars 10 digits 0

/-- The power of ten at the end of a numeral: nothing, or a sign and digits after a letter. -/
def readExponent? : List Char → Option ℤ
  | [] => some 0
  | 'e' :: sign :: digits =>
      if digits = [] ∨ digits.all Char.isDigit = false then none
      else if sign = '+' then some (natural digits)
      else if sign = '-' then some (-natural digits)
      else none
  | _ => none

/-- The digits before the point, those behind it, and the rest of a numeral without a sign. -/
def splitNumeral (text : List Char) : List Char × List Char × List Char :=
  match text.dropWhile Char.isDigit with
  | '.' :: behind =>
      (text.takeWhile Char.isDigit, behind.takeWhile Char.isDigit, behind.dropWhile Char.isDigit)
  | rest => (text.takeWhile Char.isDigit, [], rest)

/-- The number that a numeral without a sign stands for. -/
def readMagnitude? (text : List Char) : Option ℚ :=
  let (whole, fraction, rest) := splitNumeral text
  if whole = [] then none
  else
    (readExponent? rest).map fun exponent =>
      (natural (whole ++ fraction) : ℚ) * 10 ^ (exponent - (fraction.length : ℤ))

/-- Read a numeral exactly. -/
def read? : List Char → Option Reading
  | '-' :: text => (readMagnitude? text).map (⟨true, ·⟩)
  | text => (readMagnitude? text).map (⟨false, ·⟩)

/-- The parts of a numeral without a sign. -/
structure Numeral where
  /-- The digits before the point. -/
  whole : List Char
  /-- The digits behind the point; without any there is no point. -/
  fraction : List Char
  /-- The power of ten, as text and as a number. -/
  power : List Char
  exponent : ℤ
  whole_ne_nil : whole ≠ []
  whole_digits : ∀ c ∈ whole, c.isDigit = true
  fraction_digits : ∀ c ∈ fraction, c.isDigit = true
  power_reads : readExponent? power = some exponent

namespace Numeral

/-- The text of a numeral. -/
def text (n : Numeral) : List Char :=
  n.whole ++ fractionPart n.fraction ++ n.power

/-- The number that a numeral stands for. -/
def value (n : Numeral) : ℚ :=
  natural (n.whole ++ n.fraction) * 10 ^ (n.exponent - n.fraction.length)

end Numeral

end Definitions

section Reading

/-- What is read as a power of ten is nothing, or a letter with digits and a sign behind it. -/
theorem readExponent?_cases
    {power : List Char} {exponent : ℤ}
    (h : readExponent? power = some exponent) :
    power = [] ∧ exponent = 0 ∨
      ∃ rest, power = 'e' :: rest ∧ ∀ c ∈ rest, c.isDigit = true ∨ c = '+' ∨ c = '-' := by
  unfold readExponent? at h
  split at h
  · exact Or.inl ⟨rfl, (Option.some.inj h).symm⟩
  · rename_i sign digits
    by_cases hnone : digits = [] ∨ digits.all Char.isDigit = false
    · rw [if_pos hnone] at h
      cases h
    · rw [if_neg hnone] at h
      have hdigits := List.all_eq_true.mp (Bool.eq_true_of_not_eq_false (not_or.mp hnone).2)
      refine Or.inr ⟨_, rfl, List.forall_mem_cons.mpr ⟨Or.inr ?_, fun c hc => Or.inl (hdigits c hc)⟩⟩
      split at h
      · exact Or.inl ‹_›
      · split at h
        · exact Or.inr ‹_›
        · cases h
  · cases h

variable (n : Numeral)

/-- Neither a digit nor a point follows the digits of a numeral. -/
theorem Numeral.stops_power
    {p : Char → Bool}
    (hp : p 'e' = false) :
    Stops p n.power := by
  rcases readExponent?_cases n.power_reads with ⟨hpower, _⟩ | ⟨rest, hpower, _⟩
  · rw [hpower]
    exact stops_nil p
  · rw [hpower]
    exact stops_cons hp rest

/-- A numeral is split into its parts. -/
theorem Numeral.splitNumeral_text :
    splitNumeral n.text = (n.whole, n.fraction, n.power) := by
  have hpower : Stops Char.isDigit n.power := n.stops_power rfl
  have hrest : Stops Char.isDigit (fractionPart n.fraction ++ n.power) := by
    unfold fractionPart
    split
    · exact hpower
    · exact stops_cons rfl _
  simp only [splitNumeral, text, List.append_assoc, takeWhile_append_stops n.whole_digits hrest,
    dropWhile_append_stops n.whole_digits hrest]
  unfold fractionPart
  cases hfraction : n.fraction with
  | nil =>
      have hpoint := n.stops_power (p := (· == '.')) rfl
      simp only [List.isEmpty_nil, if_true, List.nil_append]
      split
      · rename_i behind hbehind
        have hdot := hpoint '.' (by rw [hbehind]; rfl)
        exact absurd hdot (by decide)
      · rfl
  | cons c rest =>
      have hdigits : ∀ d ∈ c :: rest, d.isDigit = true := hfraction ▸ n.fraction_digits
      simp only [List.isEmpty_cons, Bool.false_eq_true, if_false, List.cons_append]
      rw [← List.cons_append, takeWhile_append_stops hdigits hpower,
        dropWhile_append_stops hdigits hpower]

/-- A numeral is read as the number that it stands for. -/
theorem Numeral.readMagnitude?_text :
    readMagnitude? n.text = some n.value := by
  simp only [readMagnitude?, n.splitNumeral_text, if_neg n.whole_ne_nil, n.power_reads,
    Option.map_some]
  rfl

/-- A numeral is read with the sign in front of it. -/
theorem Numeral.read?_text
    (negative : Bool) :
    read? ((if negative then ['-'] else []) ++ n.text) = some ⟨negative, n.value⟩ := by
  cases negative with
  | true =>
      simp [read?, n.readMagnitude?_text]
  | false =>
      -- The text starts with a digit, which is no sign.
      obtain ⟨c, rest, hwhole⟩ := List.exists_cons_of_ne_nil n.whole_ne_nil
      have hc : c ≠ '-' := by
        rintro rfl
        have hdigit := n.whole_digits '-' (by rw [hwhole]; exact List.mem_cons_self)
        exact absurd hdigit (by decide)
      have htext : ∃ rest', n.text = c :: rest' := ⟨_, by rw [text, hwhole]; rfl⟩
      obtain ⟨rest', htext⟩ := htext
      have hread := n.readMagnitude?_text
      rw [htext] at hread ⊢
      simp only [Bool.false_eq_true, if_false, List.nil_append]
      unfold read?
      split
      · rename_i heq
        exact absurd (List.head_eq_of_cons_eq heq) hc
      · rw [hread]
        rfl

end Reading

section Digits

theorem natural_toDigits
    (n : Nat) :
    natural (Nat.toDigits 10 n) = n :=
  Nat.ofDigitChars_ten_toDigits

/-- Zeros in front of digits do not count. -/
theorem natural_zeros_append
    (k : Nat)
    (l : List Char) :
    natural (List.replicate k '0' ++ l) = natural l := by
  rw [natural, natural, Nat.ofDigitChars_append, Nat.ofDigitChars_replicate_zero, Nat.mul_zero]

/-- Zeros behind digits shift them. -/
theorem natural_append_zeros
    (k : Nat)
    (l : List Char) :
    natural (l ++ List.replicate k '0') = natural l * 10 ^ k := by
  rw [natural, natural, Nat.ofDigitChars_append, Nat.ofDigitChars_replicate_zero, Nat.mul_comm]

theorem isDigit_of_mem_zeros
    (k : Nat) :
    ∀ c ∈ List.replicate k '0', c.isDigit = true := by
  intro c hc
  rw [List.eq_of_mem_replicate hc]
  rfl

/-- What is dropped at the end of digits are zeros. -/
theorem exists_dropTrailingZeros
    (l : List Char) :
    ∃ k, l = dropTrailingZeros l ++ List.replicate k '0' := by
  refine ⟨(l.reverse.takeWhile (· == '0')).length, ?_⟩
  have hzeros : l.reverse.takeWhile (· == '0') =
      List.replicate (l.reverse.takeWhile (· == '0')).length '0' :=
    List.eq_replicate_of_mem fun c hc => by simpa using List.mem_takeWhile_imp hc
  rw [dropTrailingZeros, ← List.reverse_replicate, ← hzeros, ← List.reverse_append,
    List.takeWhile_append_dropWhile, List.reverse_reverse]

namespace Scientific

variable {d : Scientific}

theorem isDigit_of_mem_digitList
    (d : Scientific) :
    ∀ c ∈ d.digitList, c.isDigit = true := by
  intro c hc
  obtain ⟨k, hk⟩ := exists_dropTrailingZeros (Nat.toDigits 10 d.coefficient)
  refine isDigit_of_mem_toDigits (n := d.coefficient) c ?_
  rw [hk]
  exact List.mem_append_left _ hc

/-- The digits that are written are those of the coefficient up to some zeros. -/
theorem exists_digitList
    (d : Scientific) :
    ∃ k, natural d.digitList * 10 ^ k = d.coefficient ∧
      d.digitList.length + k = digitCount d.coefficient := by
  obtain ⟨k, hk⟩ := exists_dropTrailingZeros (Nat.toDigits 10 d.coefficient)
  refine ⟨k, ?_, ?_⟩
  · rw [← natural_append_zeros, digitList, ← hk, natural_toDigits]
  · have hlength := congrArg List.length hk
    rw [List.length_append, List.length_replicate] at hlength
    exact hlength.symm

theorem digitList_ne_nil
    (hd : 0 < d.coefficient) :
    d.digitList ≠ [] := by
  intro hnil
  obtain ⟨k, hk, _⟩ := d.exists_digitList
  rw [hnil] at hk
  have hzero : 0 * 10 ^ k = d.coefficient := hk
  omega

/-- The number of a decimal in terms of the digits that are written. -/
theorem value_eq
    (d : Scientific) :
    d.value (digitCount d.coefficient) =
      natural d.digitList * 10 ^ (d.exponent + 1 - d.digitList.length) := by
  obtain ⟨k, hk, hlength⟩ := d.exists_digitList
  rw [value, ← hlength, ← hk]
  push_cast
  rw [mul_assoc, ← zpow_natCast, ← zpow_add₀ (by norm_num)]
  congr 2
  omega

end Scientific

end Digits

section Characters

namespace Numeral

variable (n : Numeral)

theorem mem_text :
    ∀ c ∈ n.text, c.isDigit = true ∨ c ∈ ['.', 'e', '+', '-'] := by
  refine List.forall_mem_append.mpr ⟨List.forall_mem_append.mpr ⟨?_, ?_⟩, ?_⟩
  · exact fun c hc => Or.inl (n.whole_digits c hc)
  · unfold fractionPart
    split
    · exact nofun
    · refine List.forall_mem_cons.mpr ⟨Or.inr (by decide), ?_⟩
      exact fun c hc => Or.inl (n.fraction_digits c hc)
  · rcases readExponent?_cases n.power_reads with ⟨hpower, _⟩ | ⟨rest, hpower, hrest⟩
    · rw [hpower]
      exact nofun
    · rw [hpower]
      refine List.forall_mem_cons.mpr ⟨Or.inr (by decide), fun c hc => ?_⟩
      rcases hrest c hc with hdigit | rfl | rfl
      · exact Or.inl hdigit
      · exact Or.inr (by decide)
      · exact Or.inr (by decide)

/-- A numeral without a point and without a power of ten is its digits. -/
theorem text_eq_whole
    (hfraction : n.fraction = [])
    (hpower : n.power = []) :
    n.text = n.whole := by
  simp [text, hfraction, hpower, fractionPart]

/-- A numeral without a point has no digits behind it, and one without a letter no power of ten. -/
theorem parts_eq_nil
    (hpoint : '.' ∉ n.text)
    (hletter : 'e' ∉ n.text) :
    n.fraction = [] ∧ n.power = [] := by
  simp only [text, List.mem_append, not_or] at hpoint hletter
  constructor
  · by_contra hfraction
    exact hpoint.1.2 (by simp [fractionPart, hfraction])
  · rcases readExponent?_cases n.power_reads with ⟨hpower, _⟩ | ⟨rest, hpower, _⟩
    · exact hpower
    · exact absurd (by rw [hpower]; exact List.mem_cons_self) hletter.2

/-- The digit zero. -/
def zero : Numeral where
  whole := ['0']
  fraction := []
  power := []
  exponent := 0
  whole_ne_nil := List.cons_ne_nil _ _
  whole_digits := isDigit_of_mem_zeros 1
  fraction_digits := nofun
  power_reads := rfl

theorem value_zero :
    zero.value = 0 := by
  rw [value, show natural (zero.whole ++ zero.fraction) = 0 from rfl, Nat.cast_zero, zero_mul]

/-- A zero behind the point is the same number. -/
theorem exists_append_zero
    (hfraction : n.fraction = [])
    (hpower : n.power = []) :
    ∃ m : Numeral, m.text = n.text ++ ['.', '0'] ∧ m.value = n.value := by
  have hexponent : n.exponent = 0 := by
    have hread := n.power_reads
    rw [hpower] at hread
    exact (Option.some.inj hread).symm
  refine ⟨{ n with fraction := ['0'], fraction_digits := isDigit_of_mem_zeros 1 }, ?_, ?_⟩
  · rw [n.text_eq_whole hfraction hpower]
    simp [text, hpower, fractionPart]
  · have hshift : natural (n.whole ++ ['0']) = natural n.whole * 10 ^ 1 :=
      natural_append_zeros 1 n.whole
    simp only [value, hshift, hfraction, hexponent, List.append_nil, List.length_nil,
      List.length_singleton]
    norm_num [mul_assoc]

end Numeral

end Characters

section Layouts

namespace Scientific

/-- The numeral of a decimal below one; zeros stand between the point and the digits. -/
def belowOne (d : Scientific) : Numeral where
  whole := ['0']
  fraction := List.replicate (-d.exponent - 1).toNat '0' ++ d.digitList
  power := []
  exponent := 0
  whole_ne_nil := List.cons_ne_nil _ _
  whole_digits := isDigit_of_mem_zeros 1
  fraction_digits := List.forall_mem_append.mpr
    ⟨isDigit_of_mem_zeros _, d.isDigit_of_mem_digitList⟩
  power_reads := rfl

/-- The numeral of a decimal from one on; zeros stand behind digits that end before the point. -/
def fromOne (d : Scientific) (hd : 0 < d.coefficient) : Numeral where
  whole := d.digitList.take (d.exponent.toNat + 1) ++
    List.replicate (d.exponent.toNat + 1 - d.digitList.length) '0'
  fraction := d.digitList.drop (d.exponent.toNat + 1)
  power := []
  exponent := 0
  whole_ne_nil := by simp [digitList_ne_nil hd]
  whole_digits := List.forall_mem_append.mpr
    ⟨fun c hc => d.isDigit_of_mem_digitList c (List.mem_of_mem_take hc), isDigit_of_mem_zeros _⟩
  fraction_digits := fun c hc => d.isDigit_of_mem_digitList c (List.mem_of_mem_drop hc)
  power_reads := rfl

theorem readExponent?_padded
    (width : Nat)
    (exponent : ℤ) :
    readExponent? ('e' :: (if exponent < 0 then '-' else '+') :: padded width exponent.natAbs) =
      some exponent := by
  have hdigits : ∀ c ∈ padded width exponent.natAbs, c.isDigit = true :=
    List.forall_mem_append.mpr ⟨isDigit_of_mem_zeros _, isDigit_of_mem_toDigits⟩
  have hne : padded width exponent.natAbs ≠ [] :=
    List.append_ne_nil_of_right_ne_nil _ Nat.toDigits_ne_nil
  have hnatural : natural (padded width exponent.natAbs) = exponent.natAbs := by
    rw [padded, natural_zeros_append, natural_toDigits]
  have hcondition : ¬ (padded width exponent.natAbs = [] ∨
      (padded width exponent.natAbs).all Char.isDigit = false) := by
    rw [List.all_eq_true.mpr hdigits]
    simp [hne]
  rw [readExponent?, if_neg hcondition, hnatural]
  split
  · simp only [Char.reduceEq, if_false, if_true, Option.some.injEq]
    omega
  · simp only [if_true, Option.some.injEq]
    omega

/-- The numeral of a decimal with a power of ten. -/
def withPower (d : Scientific) (hd : 0 < d.coefficient) (width : Nat) : Numeral where
  whole := d.digitList.take 1
  fraction := d.digitList.drop 1
  power := 'e' :: (if d.exponent < 0 then '-' else '+') :: padded width d.exponent.natAbs
  exponent := d.exponent
  whole_ne_nil := by simp [digitList_ne_nil hd]
  whole_digits := fun c hc => d.isDigit_of_mem_digitList c (List.mem_of_mem_take hc)
  fraction_digits := fun c hc => d.isDigit_of_mem_digitList c (List.mem_of_mem_drop hc)
  power_reads := readExponent?_padded width d.exponent

variable {d : Scientific}

theorem text_belowOne
    (hd : 0 < d.coefficient)
    (hexponent : d.exponent < 0) :
    d.belowOne.text = d.positional := by
  simp [positional, hexponent, Numeral.text, belowOne, fractionPart, digitList_ne_nil hd]

theorem value_belowOne
    (hexponent : d.exponent < 0) :
    d.belowOne.value = d.value (digitCount d.coefficient) := by
  have hdigits : natural (d.belowOne.whole ++ d.belowOne.fraction) = natural d.digitList := by
    rw [show d.belowOne.whole = List.replicate 1 '0' from rfl, natural_zeros_append]
    exact natural_zeros_append ..
  rw [Numeral.value, hdigits, value_eq]
  congr 2
  simp only [belowOne, List.length_append, List.length_replicate]
  omega

theorem text_fromOne
    (hd : 0 < d.coefficient)
    (hexponent : ¬ d.exponent < 0) :
    (d.fromOne hd).text = d.positional := by
  rw [positional, if_neg hexponent, Numeral.text]
  exact List.append_nil _

theorem value_fromOne
    (hd : 0 < d.coefficient)
    (hexponent : ¬ d.exponent < 0) :
    (d.fromOne hd).value = d.value (digitCount d.coefficient) := by
  rw [Numeral.value, value_eq]
  -- The digits end before the point, or some of them stand behind it.
  rcases Nat.le_total d.digitList.length (d.exponent.toNat + 1) with hshort | hlong
  · simp only [fromOne, List.take_of_length_le hshort, List.drop_of_length_le hshort,
      List.append_nil, natural_append_zeros, List.length_nil]
    push_cast
    rw [mul_one, ← zpow_natCast]
    congr 2
    omega
  · simp only [fromOne, Nat.sub_eq_zero_of_le hlong, List.replicate_zero, List.append_nil,
      List.take_append_drop, List.length_drop]
    congr 2
    omega

theorem value_withPower
    (hd : 0 < d.coefficient)
    (width : Nat) :
    (d.withPower hd width).value = d.value (digitCount d.coefficient) := by
  have hlength : 0 < d.digitList.length := List.length_pos_of_ne_nil (digitList_ne_nil hd)
  rw [Numeral.value, value_eq]
  simp only [withPower, List.take_append_drop, List.length_drop]
  congr 2
  omega

/-- The text of a decimal is a numeral for its number. -/
theorem exists_numeral
    (hd : 0 < d.coefficient)
    (layout : Layout) :
    ∃ n : Numeral, n.text = d.render layout ∧ n.value = d.value (digitCount d.coefficient) := by
  unfold render
  split
  · by_cases hexponent : d.exponent < 0
    · exact ⟨d.belowOne, text_belowOne hd hexponent, value_belowOne hexponent⟩
    · exact ⟨d.fromOne hd, text_fromOne hd hexponent, value_fromOne hd hexponent⟩
  · exact ⟨d.withPower hd layout.exponentWidth, rfl, value_withPower hd layout.exponentWidth⟩

end Scientific

end Layouts

end Decimal

end ThreeAddress
