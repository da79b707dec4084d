import CurrencyPad.Proofs.Decimal.Value

/-!
# Plain notation and values

The digits of a number in plain notation, with the places that are shown, make up
its value.  The notation depends on the sign and on the value alone: a number
that is held with more zeros at the end of its coefficient is written the same.
-/

namespace CurrencyPad

namespace Decimal

def shownPlaces (d : Decimal) : Text :=
  Text.dropTrailing (· == '0') d.fractionText

theorem shownPlaces_digits (d : Decimal) :
    ∀ c ∈ d.shownPlaces, Text.isAsciiDigit c = true :=
  fun c member =>
    d.fractionText_digits c (Text.mem_of_mem_dropTrailing member)

private theorem fractionText_of_nonneg {d : Decimal}
    (whole : 0 ≤ d.exponent) : d.fractionText = [] := by
  unfold fractionText
  rw [if_pos whole]

/-- The digits that are shown have the value of the decimal. -/
theorem size_eq_digitsValue (d : Decimal) :
    d.size =
      digitsValue (d.wholeText ++ d.shownPlaces) *
        (10 : ℚ) ^ (-(d.shownPlaces.length : ℤ)) := by
  by_cases whole : 0 ≤ d.exponent
  · have none : d.shownPlaces = [] := by
      unfold shownPlaces
      rw [fractionText_of_nonneg whole]
      rfl
    rw [none, List.append_nil, digitsValue_wholeText_of_nonneg whole]
    unfold size
    rw [ten_zpow_of_nonneg whole]
    simp
  · have places : d.exponent < 0 := by omega
    obtain ⟨count, parts⟩ :=
      Text.exists_dropTrailing_append_replicate '0' d.fractionText
    have lengths : (-d.exponent).toNat = d.shownPlaces.length + count := by
      rw [← length_fractionText, parts]
      simp [shownPlaces]
    have digits : d.coefficient =
        digitsValue (d.wholeText ++ d.shownPlaces) * 10 ^ count := by
      have all : digitsValue (d.wholeText ++ d.fractionText) =
          d.coefficient := by
        rw [digitsValue_append, digitsValue_wholeText_of_neg places,
          digitsValue_fractionText places, length_fractionText,
          Nat.mul_comm]
        exact Nat.div_add_mod _ _
      rw [parts, ← List.append_assoc, digitsValue_append] at all
      simpa [shownPlaces] using all.symm
    have exponents : d.exponent =
        -(d.shownPlaces.length : ℤ) - (count : ℤ) := by
      omega
    unfold size
    rw [digits, exponents, zpow_sub₀ (by norm_num), zpow_natCast]
    push_cast
    field_simp

private theorem digits_mul_ten {n : Nat} (positive : 0 < n) :
    digits (n * 10) = digits n ++ ['0'] := by
  have joined := Nat.toDigits_append_toDigits (b := 10) (d := 0)
    (by decide) positive (by decide)
  rw [Nat.toDigits_zero] at joined
  rw [digits, digits, joined, Nat.add_zero, Nat.mul_comm]

theorem wholeText_withZeros_one (d : Decimal) :
    (d.withZeros 1).wholeText = d.wholeText := by
  by_cases zero : d.coefficient = 0
  · simp [wholeText, withZeros, zero]
  · have positive : 0 < d.coefficient := Nat.pos_of_ne_zero zero
    have more : d.coefficient * Nat.pow 10 1 = d.coefficient * 10 := rfl
    have nonzero : d.coefficient * 10 ≠ 0 := by omega
    unfold wholeText withZeros
    dsimp only
    rw [more, if_neg nonzero, if_neg zero]
    by_cases whole : 0 ≤ d.exponent
    · rw [if_pos whole]
      by_cases point : d.exponent = 0
      · rw [point]
        simp
      · have before : 0 ≤ d.exponent - ((1 : Nat) : ℤ) := by omega
        have zeros : d.exponent.toNat =
            (d.exponent - ((1 : Nat) : ℤ)).toNat + 1 := by
          omega
        rw [if_pos before, digits_mul_ten positive, zeros,
          List.replicate_succ, List.append_assoc]
        rfl
    · have after : ¬ 0 ≤ d.exponent - ((1 : Nat) : ℤ) := by omega
      have places : (-(d.exponent - ((1 : Nat) : ℤ))).toNat =
          (-d.exponent).toNat + 1 := by
        omega
      rw [if_neg whole, if_neg after, places, Nat.pow_eq, Nat.pow_eq,
        pow_succ, Nat.mul_div_mul_right _ _ (by decide)]

private theorem fractionText_withZeros_one {d : Decimal}
    (places : d.exponent < 0) :
    (d.withZeros 1).fractionText = d.fractionText ++ ['0'] := by
  have after : ¬ 0 ≤ d.exponent - ((1 : Nat) : ℤ) := by omega
  have count : (-(d.exponent - ((1 : Nat) : ℤ))).toNat =
      (-d.exponent).toNat + 1 := by
    omega
  have rest : d.coefficient * Nat.pow 10 1 %
      Nat.pow 10 ((-d.exponent).toNat + 1) =
        d.coefficient % Nat.pow 10 (-d.exponent).toNat * 10 := by
    rw [Nat.pow_eq, Nat.pow_eq, Nat.pow_eq, pow_one, pow_succ,
      Nat.mul_mod_mul_right]
  unfold fractionText withZeros
  dsimp only
  rw [if_neg after, if_neg (Int.not_le.mpr places), count, rest]
  generalize d.coefficient % Nat.pow 10 (-d.exponent).toNat = remainder
  by_cases zero : remainder = 0
  · have shift : (-d.exponent).toNat = (-d.exponent).toNat - 1 + 1 := by omega
    rw [zero]
    simp only [digits, Nat.zero_mul, Nat.toDigits_zero, List.length_singleton,
      Nat.add_sub_cancel]
    conv_lhs => rw [shift, List.replicate_succ']
  · rw [digits_mul_ten (Nat.pos_of_ne_zero zero), List.length_append,
      List.length_singleton, Nat.add_sub_add_right, List.append_assoc]

theorem shownPlaces_withZeros_one (d : Decimal) :
    (d.withZeros 1).shownPlaces = d.shownPlaces := by
  unfold shownPlaces
  by_cases places : d.exponent < 0
  · rw [fractionText_withZeros_one places]
    exact Text.dropTrailing_append_replicate '0' d.fractionText 1
  · rw [fractionText_of_nonneg (d := d) (by omega)]
    by_cases point : d.exponent = 0
    · simp [fractionText, withZeros, point, digits, Text.dropTrailing]
    · have before : 0 ≤ (d.withZeros 1).exponent := by
        simp only [withZeros]
        omega
      rw [fractionText_of_nonneg before]

private theorem withZeros_succ (d : Decimal) (count : Nat) :
    d.withZeros (count + 1) = (d.withZeros count).withZeros 1 := by
  unfold withZeros
  congr 1
  · simp [pow_succ, mul_assoc]
  · push_cast
    ring

end Decimal

namespace Number

open Decimal

theorem plain_eq (locale : Locale) (grouped : Bool) (d : Decimal) :
    plain locale grouped d =
      Text.withSign d.negative
        (wholePart locale grouped d.wholeText ++
          if d.shownPlaces.isEmpty then []
          else locale.decimal :: d.shownPlaces) := rfl

theorem plain_withZeros (locale : Locale) (grouped : Bool) (d : Decimal)
    (count : Nat) :
    plain locale grouped (d.withZeros count) = plain locale grouped d := by
  induction count with
  | zero =>
      have same : d.withZeros 0 = d := by
        simp [withZeros]
      rw [same]
  | succ count inductionHypothesis =>
      rw [withZeros_succ, plain_eq, wholeText_withZeros_one,
        shownPlaces_withZeros_one, ← inductionHypothesis]
      rfl

/-- Numbers of one sign and one value are written the same. -/
theorem plain_congr {d e : Decimal} (sign : d.negative = e.negative)
    (size : d.size = e.size) (locale : Locale) (grouped : Bool) :
    plain locale grouped d = plain locale grouped e := by
  -- With the lower of the two exponents both are the same decimal.
  have common : d.withZeros (d.exponent - e.exponent).toNat =
      e.withZeros (e.exponent - d.exponent).toNat := by
    have exponents :
        d.exponent - ((d.exponent - e.exponent).toNat : ℤ) =
          e.exponent - ((e.exponent - d.exponent).toNat : ℤ) := by
      omega
    have sizes := size
    rw [← size_withZeros d (d.exponent - e.exponent).toNat,
      ← size_withZeros e (e.exponent - d.exponent).toNat] at sizes
    unfold Decimal.size withZeros at sizes
    dsimp only at sizes
    rw [exponents] at sizes
    have coefficients :=
      mul_right_cancel₀ (ten_zpow_pos _).ne' sizes
    unfold withZeros
    congr 1
    exact_mod_cast coefficients
  rw [← plain_withZeros locale grouped d (d.exponent - e.exponent).toNat,
    common, plain_withZeros]

end Number

end CurrencyPad
