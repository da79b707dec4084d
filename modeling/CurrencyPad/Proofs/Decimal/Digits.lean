import CurrencyPad.Decimal.Reading
import CurrencyPad.Number.Plain
import Mathlib.Algebra.Order.Field.Power
import Mathlib.Data.List.Basic
import Mathlib.Data.List.TakeDrop
import Mathlib.Data.List.TakeWhile
import Mathlib.Tactic.IntervalCases

/-!
# Digits of decimals

The digits before and after the point of a decimal are rows of the ten digits.
Read as whole numbers they give back the quotient and the remainder of the
coefficient, and zeros at the end of the places count as a power of ten.
-/

namespace CurrencyPad

namespace Text

/-- Only characters of one kind are dropped at the end of a text. -/
theorem exists_dropTrailing_append_replicate (dropped : Char) (text : Text) :
    ∃ count,
      text = dropTrailing (· == dropped) text ++
        List.replicate count dropped := by
  have parts :
      text.reverse.takeWhile (· == dropped) ++
          text.reverse.dropWhile (· == dropped) = text.reverse :=
    List.takeWhile_append_dropWhile
  have same :
      text.reverse.takeWhile (· == dropped) =
        List.replicate (text.reverse.takeWhile (· == dropped)).length
          dropped := by
    refine List.eq_replicate_iff.mpr ⟨rfl, fun c member => ?_⟩
    have kept := List.mem_takeWhile_imp member
    simpa using kept
  refine ⟨(text.reverse.takeWhile (· == dropped)).length, ?_⟩
  have reversed := congrArg List.reverse parts
  rw [List.reverse_append, List.reverse_reverse, same,
    List.reverse_replicate] at reversed
  exact reversed.symm

theorem mem_of_mem_dropTrailing {condition : Char → Bool} {text : Text}
    {c : Char} (member : c ∈ dropTrailing condition text) : c ∈ text := by
  unfold dropTrailing at member
  have inside := (List.dropWhile_sublist _).mem
    (List.mem_reverse.mp member)
  exact List.mem_reverse.mp inside

/-- What ends otherwise is not shortened further. -/
theorem dropTrailing_append_replicate (dropped : Char) (text : Text)
    (count : Nat) :
    dropTrailing (· == dropped) (text ++ List.replicate count dropped) =
      dropTrailing (· == dropped) text := by
  unfold dropTrailing
  rw [List.reverse_append, List.reverse_replicate,
    List.dropWhile_append_of_pos]
  intro c member
  rw [List.eq_of_mem_replicate member]
  exact beq_self_eq_true dropped

/-- A row of digits ends where no digit follows. -/
theorem span_digits {digits rest : Text}
    (all : ∀ c ∈ digits, isAsciiDigit c = true)
    (ends : ∀ c ∈ rest.head?, isAsciiDigit c = false) :
    (digits ++ rest).span isAsciiDigit = (digits, rest) := by
  have stops : rest.takeWhile isAsciiDigit = [] ∧
      rest.dropWhile isAsciiDigit = rest := by
    cases rest with
    | nil =>
        exact ⟨rfl, rfl⟩
    | cons c others =>
        simp [ends c rfl]
  rw [List.span_eq_takeWhile_dropWhile, List.takeWhile_append_of_pos all,
    List.dropWhile_append_of_pos all, stops.1, stops.2, List.append_nil]

end Text

namespace Decimal

theorem isAsciiDigit_of_mem_digits {n : Nat} :
    ∀ c ∈ digits n, Text.isAsciiDigit c = true := by
  intro c member
  have isDigit : c.isDigit = true :=
    Nat.isDigit_of_mem_toDigits (by decide) (by decide) member
  simpa [Char.isDigit, Text.isAsciiDigit, Char.le_def] using isDigit

/-- The digits of a number begin with a zero only if it is zero. -/
theorem eq_zero_of_head?_digits {n : Nat}
    (starts : (digits n).head? = some '0') : n = 0 := by
  induction n using Nat.strong_induction_on with
  | _ n inductionHypothesis =>
      unfold digits at starts inductionHypothesis
      by_cases small : n < 10
      · rw [Nat.toDigits_of_lt_base small] at starts
        interval_cases n <;> first | rfl | cases starts
      · have several : 10 ≤ n := Nat.not_lt.mp small
        rw [Nat.toDigits_of_base_le (by decide) several,
          List.head?_append_of_ne_nil _ Nat.toDigits_ne_nil] at starts
        have zero := inductionHypothesis (n / 10) (by omega) starts
        omega

private theorem isAsciiDigit_of_mem_zeros {count : Nat} :
    ∀ c ∈ List.replicate count '0', Text.isAsciiDigit c = true := by
  intro c member
  rw [List.eq_of_mem_replicate member]
  decide

theorem wholeText_digits (d : Decimal) :
    d.wholeText ≠ [] ∧ ∀ c ∈ d.wholeText, Text.isAsciiDigit c = true := by
  unfold wholeText
  split
  · exact ⟨List.cons_ne_nil _ _, List.all_eq_true.mp (by decide)⟩
  · split
    · refine ⟨List.append_ne_nil_of_left_ne_nil Nat.toDigits_ne_nil _, ?_⟩
      intro c member
      rcases List.mem_append.mp member with digit | zero
      · exact isAsciiDigit_of_mem_digits c digit
      · exact isAsciiDigit_of_mem_zeros c zero
    · exact ⟨Nat.toDigits_ne_nil, isAsciiDigit_of_mem_digits⟩

theorem fractionText_digits (d : Decimal) :
    ∀ c ∈ d.fractionText, Text.isAsciiDigit c = true := by
  unfold fractionText
  split
  · exact nofun
  · intro c member
    rcases List.mem_append.mp member with zero | digit
    · exact isAsciiDigit_of_mem_zeros c zero
    · exact isAsciiDigit_of_mem_digits c digit

@[simp]
theorem digitsValue_digits (n : Nat) : digitsValue (digits n) = n :=
  Nat.ofDigitChars_ten_toDigits

theorem digitsValue_append (left right : Text) :
    digitsValue (left ++ right) =
      digitsValue left * 10 ^ right.length + digitsValue right := by
  unfold digitsValue
  rw [Nat.ofDigitChars_append, Nat.ofDigitChars_eq_ofDigitChars_zero,
    Nat.mul_comm]

@[simp]
theorem digitsValue_replicate_zero (count : Nat) :
    digitsValue (List.replicate count '0') = 0 := by
  simp [digitsValue]

theorem digitCount_le_iff {n count : Nat} (positive : 0 < count) :
    digitCount n ≤ count ↔ n < 10 ^ count :=
  Nat.length_toDigits_le_iff (by decide) positive

theorem digitCount_pos (n : Nat) : 0 < digitCount n :=
  Nat.length_toDigits_pos

theorem lt_pow_digitCount (n : Nat) : n < 10 ^ digitCount n :=
  (digitCount_le_iff (digitCount_pos n)).mp (Nat.le_refl _)

theorem pow_digitCount_le {n : Nat} (positive : 0 < n) :
    10 ^ (digitCount n - 1) ≤ n := by
  by_contra less
  have several : 0 < digitCount n - 1 := by
    by_contra single
    have none : digitCount n - 1 = 0 := by omega
    rw [none, Nat.pow_zero] at less
    omega
  have fewer := (digitCount_le_iff several).mpr (Nat.not_le.mp less)
  omega

/-- The digits before the point of a decimal that is a whole number. -/
theorem digitsValue_wholeText_of_nonneg {d : Decimal}
    (whole : 0 ≤ d.exponent) :
    digitsValue d.wholeText = d.coefficient * 10 ^ d.exponent.toNat := by
  unfold wholeText
  split
  case isTrue zero =>
    rw [zero, Nat.zero_mul]
    rfl
  case isFalse nonzero =>
    rw [digitsValue_append]
    simp

theorem digitsValue_wholeText_of_neg {d : Decimal}
    (places : d.exponent < 0) :
    digitsValue d.wholeText =
      d.coefficient / 10 ^ (-d.exponent).toNat := by
  unfold wholeText
  split
  case isTrue zero =>
    rw [zero, Nat.zero_div]
    rfl
  case isFalse nonzero =>
    rw [if_neg (Int.not_le.mpr places), digitsValue_digits, Nat.pow_eq]

/-- There are as many digits after the point as the exponent tells. -/
theorem length_fractionText (d : Decimal) :
    d.fractionText.length = (-d.exponent).toNat := by
  unfold fractionText
  split
  case isTrue whole =>
    simp only [List.length_nil]
    omega
  case isFalse places =>
    have positive : 0 < (-d.exponent).toNat := by omega
    have fits :
        digitCount (d.coefficient % Nat.pow 10 (-d.exponent).toNat) ≤
          (-d.exponent).toNat :=
      (digitCount_le_iff positive).mpr
        (Nat.mod_lt _ (Nat.pow_pos (by decide)))
    simp only [digitCount] at fits
    simp only [List.length_append, List.length_replicate]
    omega

theorem digitsValue_fractionText {d : Decimal} (places : d.exponent < 0) :
    digitsValue d.fractionText =
      d.coefficient % 10 ^ (-d.exponent).toNat := by
  unfold fractionText
  rw [if_neg (Int.not_le.mpr places)]
  simp [digitsValue_append]

end Decimal

end CurrencyPad
