import CurrencyPad.Proofs.Decimal.Value
import Mathlib.Algebra.Group.Int.Even

/-!
# Rounding half even

A quotient is rounded to the nearest whole number, and from the middle between two
of them to the even one.  Decimals are rounded to significant digits in this way:
the unit is the power of ten that leaves so many digits of the number.
-/

namespace CurrencyPad

namespace Decimal

section Remainder

variable {denominator : Nat}

private theorem div_lt_half_iff (rest : Nat)
    (positive : (0 : ℚ) < denominator) :
    (rest : ℚ) / denominator < 1 / 2 ↔ 2 * rest < denominator := by
  rw [div_lt_iff₀ positive, ← Nat.cast_lt (α := ℚ)]
  push_cast
  constructor <;> intro bound <;> linarith

private theorem div_eq_half_iff (rest : Nat)
    (positive : (0 : ℚ) < denominator) :
    (rest : ℚ) / denominator = 1 / 2 ↔ 2 * rest = denominator := by
  rw [div_eq_iff positive.ne', ← Nat.cast_inj (R := ℚ)]
  push_cast
  constructor <;> intro bound <;> linarith

/-- To the even one of two neighbours is just half a unit where the rest of a
quotient is a half. -/
private theorem half_of_parity (whole : Nat) :
    Even (whole + whole % 2) ∧
      (((whole + whole % 2 : ℕ) : ℚ) - 1 / 2 ≤ whole + 1 / 2 ∧
        (whole : ℚ) + 1 / 2 ≤ ((whole + whole % 2 : ℕ) : ℚ) + 1 / 2) := by
  refine ⟨?_, ?_⟩
  · rw [Nat.even_iff]
    omega
  · rcases Nat.mod_two_eq_zero_or_one whole with parity | parity
    · rw [parity]
      push_cast
      constructor <;> linarith
    · rw [parity]
      push_cast
      constructor <;> linarith

end Remainder

/-- The nearest whole number of a quotient is at most a half away from it, and a
half only if it is even. -/
theorem divideHalfEven_spec (numerator : Nat) {denominator : Nat}
    (positive : 0 < denominator) :
    let result : ℚ := divideHalfEven numerator denominator
    let quotient : ℚ := (numerator : ℚ) / denominator
    (result - 1 / 2 ≤ quotient ∧ quotient ≤ result + 1 / 2) ∧
      (result - 1 / 2 = quotient ∨ quotient = result + 1 / 2 →
        Even (divideHalfEven numerator denominator)) := by
  dsimp only
  have divisor : (0 : ℚ) < denominator := by exact_mod_cast positive
  obtain ⟨whole, rest, small, same⟩ : ∃ whole rest, rest < denominator ∧
      numerator = denominator * whole + rest :=
    ⟨numerator / denominator, numerator % denominator,
      Nat.mod_lt numerator positive,
      (Nat.div_add_mod numerator denominator).symm⟩
  have quotientEq : (numerator : ℚ) / denominator =
      whole + (rest : ℚ) / denominator := by
    rw [same]
    push_cast
    field_simp
  have restNonneg : 0 ≤ (rest : ℚ) / denominator := by positivity
  have restSmall : (rest : ℚ) / denominator < 1 := by
    rw [div_lt_one divisor]
    exact_mod_cast small
  have less := div_lt_half_iff rest divisor
  have equal := div_eq_half_iff rest divisor
  have wholeEq : numerator / denominator = whole := by
    rw [same, Nat.mul_add_div positive, Nat.div_eq_of_lt small, Nat.add_zero]
  have restEq : numerator % denominator = rest := by
    rw [same, Nat.mul_add_mod, Nat.mod_eq_of_lt small]
  rw [quotientEq]
  unfold divideHalfEven
  dsimp only
  rw [wholeEq, restEq]
  generalize (rest : ℚ) / denominator = part at restNonneg restSmall less equal
  split
  case isTrue low =>
    have bound := less.mpr low
    refine ⟨⟨by linarith, by linarith⟩, fun tie => ?_⟩
    rcases tie with tie | tie <;> linarith
  case isFalse notLow =>
    have least : 1 / 2 ≤ part := not_lt.mp (mt less.mp notLow)
    split
    case isTrue high =>
      have different : part ≠ 1 / 2 := fun tie => by
        have := equal.mp tie
        omega
      have strict : 1 / 2 < part := lt_of_le_of_ne least different.symm
      push_cast
      refine ⟨⟨by linarith, by linarith⟩, fun tie => ?_⟩
      rcases tie with tie | tie <;> linarith
    case isFalse notHigh =>
      have tie : part = 1 / 2 := equal.mpr (by omega)
      obtain ⟨even, near⟩ := half_of_parity whole
      rw [tie]
      exact ⟨near, fun _ => even⟩

end Decimal

/-- A number is rounded to so many digits, of which the first is that of the
number itself, and to an even last digit from the middle between two such
numbers. -/
inductive IsHalfEven (count : Nat) : ℚ → ℚ → Prop where
  | zero : IsHalfEven count 0 0
  | units {q r : ℚ} (exponent coefficient : ℤ)
      (first : 10 ^ (count - 1) * 10 ^ exponent ≤ |q|)
      (last : |q| < 10 ^ count * 10 ^ exponent)
      (multiple : r = coefficient * 10 ^ exponent)
      (near : |r - q| ≤ 10 ^ exponent / 2)
      (even : |r - q| = 10 ^ exponent / 2 → Even coefficient) :
      IsHalfEven count q r

theorem IsHalfEven.neg {count : Nat} {q r : ℚ} (rounds : IsHalfEven count q r) :
    IsHalfEven count (-q) (-r) := by
  cases rounds with
  | zero =>
      rw [neg_zero]
      exact .zero
  | units exponent coefficient first last multiple near even =>
      have distance : |(-r) - (-q)| = |r - q| := by
        rw [neg_sub_neg, abs_sub_comm]
      rw [← abs_neg] at first last
      rw [← distance] at near even
      refine .units exponent (-coefficient) first last ?_ near
        fun tie => (even tie).neg
      rw [multiple, Int.cast_neg, neg_mul]

namespace Decimal

theorem divideHalfEven_le (numerator denominator : Nat) :
    divideHalfEven numerator denominator ≤ numerator / denominator + 1 := by
  unfold divideHalfEven
  dsimp only
  split_ifs <;> omega

/-- The power of ten of the last of so many significant digits. -/
def lastPlace (d : Decimal) (count : Nat) : ℤ :=
  d.magnitude + 1 - count

theorem lastPlace_of_cut {d : Decimal} {count : Nat}
    (cut : count < digitCount d.coefficient) :
    d.lastPlace count =
      d.exponent + (digitCount d.coefficient - count : ℕ) := by
  unfold lastPlace magnitude
  omega

/-- A number is counted in the last place by so many digits. -/
theorem lastPlace_bounds {d : Decimal} (nonzero : d.coefficient ≠ 0)
    {count : Nat} (positive : 0 < count) :
    (10 : ℚ) ^ (count - 1) * 10 ^ d.lastPlace count ≤ d.size ∧
      d.size < 10 ^ count * 10 ^ d.lastPlace count := by
  have first : ((count - 1 : ℕ) : ℤ) + d.lastPlace count = d.magnitude := by
    unfold lastPlace
    omega
  have last : (count : ℤ) + d.lastPlace count = d.magnitude + 1 := by
    unfold lastPlace
    omega
  have bounds := size_bounds nonzero
  rwa [← last, ← first, zpow_add₀ (by norm_num), zpow_add₀ (by norm_num),
    zpow_natCast, zpow_natCast] at bounds

theorem toSignificant_of_few {d : Decimal} {count : Nat}
    (few : digitCount d.coefficient ≤ count) : d.toSignificant count = d :=
  if_pos (Nat.sub_eq_zero_of_le few)

/-- A carry out of the significant digits leaves a power of ten, so the digit
that is then dropped is a zero. -/
theorem size_toSignificant_of_cut {d : Decimal} {count : Nat}
    (positive : 0 < count) (cut : count < digitCount d.coefficient) :
    (d.toSignificant count).size =
      divideHalfEven d.coefficient (10 ^ (digitCount d.coefficient - count)) *
        10 ^ d.lastPlace count := by
  have most : d.coefficient / 10 ^ (digitCount d.coefficient - count) <
      10 ^ count := by
    apply (Nat.div_lt_iff_lt_mul (Nat.pow_pos (by decide))).mpr
    rw [← pow_add, Nat.add_sub_cancel' cut.le]
    exact lt_pow_digitCount d.coefficient
  unfold toSignificant
  dsimp only
  rw [if_neg (Nat.sub_ne_zero_of_lt cut), Nat.pow_eq, lastPlace_of_cut cut]
  have atMost := divideHalfEven_le d.coefficient
    (10 ^ (digitCount d.coefficient - count))
  generalize divideHalfEven d.coefficient
    (10 ^ (digitCount d.coefficient - count)) = result at atMost
  by_cases fits : digitCount result ≤ count
  · rw [if_pos fits]
    rfl
  · rw [digitCount_le_iff positive, not_lt] at fits
    obtain ⟨more, rfl⟩ := Nat.exists_eq_add_of_lt positive
    have carried : result = 10 * 10 ^ (0 + more) := by
      rw [← pow_succ']
      omega
    rw [if_neg (by rwa [digitCount_le_iff positive, not_lt]), carried, size,
      Nat.mul_div_cancel_left _ (by decide), zpow_add_one₀ (by norm_num)]
    push_cast
    ring

end Decimal

/-- A number that is counted by a nearest whole number. -/
theorem IsHalfEven.of_count {count : Nat} {q r x : ℚ} (exponent : ℤ)
    {whole : Nat} (first : 10 ^ (count - 1) * 10 ^ exponent ≤ |q|)
    (last : |q| < 10 ^ count * 10 ^ exponent)
    (counted : q = x * 10 ^ exponent) (multiple : r = whole * 10 ^ exponent)
    (near : |whole - x| ≤ 1 / 2) (even : |whole - x| = 1 / 2 → Even whole) :
    IsHalfEven count q r := by
  have unit : (0 : ℚ) < 10 ^ exponent := Decimal.ten_zpow_pos exponent
  have distance : |r - q| = |whole - x| * 10 ^ exponent := by
    rw [counted, multiple, ← sub_mul, abs_mul, abs_of_pos unit]
  have half : (10 : ℚ) ^ exponent / 2 = 1 / 2 * 10 ^ exponent := by
    ring
  refine .units exponent whole first last ?_ ?_ ?_
  · rw [multiple, Int.cast_natCast]
  · rw [distance, half]
    exact mul_le_mul_of_nonneg_right near unit.le
  · rw [distance, half, mul_left_inj' unit.ne', Int.even_coe_nat]
    exact even

namespace Decimal

theorem isHalfEven_size (d : Decimal) {count : Nat} (positive : 0 < count) :
    IsHalfEven count d.size (d.toSignificant count).size := by
  by_cases zero : d.coefficient = 0
  · have none : d.size = 0 := by
      simp [size, zero]
    have few : digitCount d.coefficient ≤ count := by
      rw [zero]
      exact positive
    rw [toSignificant_of_few few, none]
    exact .zero
  · obtain ⟨first, last⟩ := lastPlace_bounds zero positive
    rw [← abs_of_nonneg d.size_nonneg] at first last
    by_cases few : digitCount d.coefficient ≤ count
    · -- The number is counted exactly.
      have counted : d.size =
          (d.coefficient * 10 ^ (count - digitCount d.coefficient) : ℕ) *
            10 ^ d.lastPlace count := by
        have place : d.exponent = d.lastPlace count +
            (count - digitCount d.coefficient : ℕ) := by
          unfold lastPlace magnitude
          omega
        rw [size, place, zpow_add₀ (by norm_num), zpow_natCast]
        push_cast
        ring
      rw [toSignificant_of_few few]
      apply IsHalfEven.of_count _ first last counted counted <;> norm_num
    · have cut := Nat.lt_of_not_le few
      have counted : d.size =
          (d.coefficient : ℚ) /
            (10 ^ (digitCount d.coefficient - count) : ℕ) *
              10 ^ d.lastPlace count := by
        rw [size, lastPlace_of_cut cut, zpow_add₀ (by norm_num), zpow_natCast]
        push_cast
        field_simp
      obtain ⟨⟨above, below⟩, tie⟩ := divideHalfEven_spec d.coefficient
        (Nat.pow_pos (n := digitCount d.coefficient - count)
          (by decide : 0 < 10))
      refine .of_count _ first last counted
        (size_toSignificant_of_cut positive cut) ?_ fun onTie => tie ?_
      · exact abs_le.mpr ⟨by linarith, by linarith⟩
      · rcases eq_or_eq_neg_of_abs_eq onTie with up | down
        · exact .inl (by linarith)
        · exact .inr (by linarith)

theorem isHalfEven_toSignificant (d : Decimal) {count : Nat}
    (positive : 0 < count) :
    IsHalfEven count d.toRat (d.toSignificant count).toRat := by
  have sizes := d.isHalfEven_size positive
  unfold toRat
  rw [negative_toSignificant]
  cases d.negative with
  | false =>
      exact sizes
  | true =>
      exact sizes.neg

end Decimal

end CurrencyPad
