import CurrencyPad.Proofs.Decimal.Digits
import Mathlib.Algebra.Order.Field.Power
import Mathlib.Algebra.Order.Field.Rat
import Mathlib.Tactic.FieldSimp
import Mathlib.Tactic.Linarith
import Mathlib.Tactic.NormNum
import Mathlib.Tactic.Positivity
import Mathlib.Tactic.Ring

/-!
# Values of decimals

The rational number that a decimal stands for.  Zeros at the end of a coefficient
do not change it, and neither does a product with few significant digits when it
is rounded to the digits that products keep.
-/

namespace CurrencyPad.Decimal

/-- The absolute value of the number that a decimal stands for. -/
def size (d : Decimal) : ℚ :=
  d.coefficient * (10 : ℚ) ^ d.exponent

/-- The number that a decimal stands for. -/
def toRat (d : Decimal) : ℚ :=
  if d.negative then -d.size else d.size

private theorem ten_ne_zero : (10 : ℚ) ≠ 0 := by
  norm_num

theorem ten_zpow_pos (exponent : ℤ) : 0 < (10 : ℚ) ^ exponent := by
  positivity

theorem size_nonneg (d : Decimal) : 0 ≤ d.size := by
  unfold size
  positivity

theorem toRat_eq_zero_iff (d : Decimal) : d.toRat = 0 ↔ d.size = 0 := by
  cases negative : d.negative <;> simp [toRat, negative]

theorem isZero_iff (d : Decimal) : d.isZero = true ↔ d.size = 0 := by
  simp [isZero, size, (ten_zpow_pos d.exponent).ne']

/-- A power of ten as a whole number. -/
theorem ten_zpow_of_nonneg {exponent : ℤ} (nonneg : 0 ≤ exponent) :
    (10 : ℚ) ^ exponent = ((10 ^ exponent.toNat : ℕ) : ℚ) := by
  have same : exponent = (exponent.toNat : ℤ) := by omega
  rw [same, zpow_natCast, Int.toNat_natCast]
  push_cast
  rfl

/-- The first digit of a decimal stands at its magnitude. -/
theorem size_bounds {d : Decimal} (nonzero : d.coefficient ≠ 0) :
    (10 : ℚ) ^ d.magnitude ≤ d.size ∧ d.size < 10 ^ (d.magnitude + 1) := by
  have positive := ten_zpow_pos d.exponent
  have digit := digitCount_pos d.coefficient
  have least : (10 : ℚ) ^ (digitCount d.coefficient - 1) ≤ d.coefficient := by
    exact_mod_cast pow_digitCount_le (Nat.pos_of_ne_zero nonzero)
  have most : (d.coefficient : ℚ) < 10 ^ digitCount d.coefficient := by
    exact_mod_cast lt_pow_digitCount d.coefficient
  have start : d.magnitude =
      ((digitCount d.coefficient - 1 : ℕ) : ℤ) + d.exponent := by
    unfold magnitude
    omega
  have finish : d.magnitude + 1 =
      (digitCount d.coefficient : ℤ) + d.exponent := by
    unfold magnitude
    omega
  unfold size
  rw [finish, start, zpow_add₀ ten_ne_zero, zpow_add₀ ten_ne_zero,
    zpow_natCast, zpow_natCast]
  exact ⟨mul_le_mul_of_nonneg_right least positive.le,
    mul_lt_mul_of_pos_right most positive⟩

theorem size_withZeros (d : Decimal) (count : Nat) :
    (d.withZeros count).size = d.size := by
  unfold size withZeros
  have split : (10 : ℚ) ^ d.exponent =
      10 ^ (d.exponent - count) * 10 ^ count := by
    rw [← zpow_natCast, ← zpow_add₀ ten_ne_zero, sub_add_cancel]
  rw [split, Nat.pow_eq]
  push_cast
  ring

/-- The zeros removed from a coefficient make up the rest of it, and none is left
if enough of them may be removed. -/
theorem trimZeros_spec (count coefficient : Nat) :
    coefficient = (trimZeros count coefficient).1 *
        10 ^ (trimZeros count coefficient).2 ∧
      (0 < coefficient → coefficient < 10 ^ count →
        (trimZeros count coefficient).1 % 10 ≠ 0) := by
  induction count generalizing coefficient with
  | zero =>
      refine ⟨(Nat.mul_one _).symm, fun positive small => ?_⟩
      omega
  | succ count inductionHypothesis =>
      unfold trimZeros
      split
      case isTrue divisible =>
        obtain ⟨same, trimmed⟩ := inductionHypothesis (coefficient / 10)
        refine ⟨?_, fun positive small => trimmed ?_ ?_⟩
        · have split : coefficient = 10 * (coefficient / 10) := by omega
          dsimp only
          rw [pow_succ, ← mul_assoc, ← same]
          omega
        · omega
        · rw [pow_succ] at small
          omega
      case isFalse indivisible =>
        exact ⟨(Nat.mul_one _).symm, fun _ _ => indivisible⟩

theorem size_reduced (d : Decimal) : d.reduced.size = d.size := by
  unfold reduced
  split
  case isTrue zero =>
    simp [size, zero]
  case isFalse nonzero =>
    obtain ⟨same, _⟩ := trimZeros_spec (digitCount d.coefficient) d.coefficient
    generalize trimZeros (digitCount d.coefficient) d.coefficient = trimmed
      at same
    unfold size
    dsimp only
    rw [same, zpow_add₀ ten_ne_zero, zpow_natCast]
    push_cast
    ring

@[simp]
theorem negative_reduced (d : Decimal) : d.reduced.negative = d.negative := by
  unfold reduced
  split <;> rfl

/-- A reduced coefficient has no more digits than the exponent allows. -/
theorem coefficient_reduced_lt {d : Decimal} {count : Nat}
    (positive : 0 < count) (small : d.coefficient ≤ 10 ^ count) :
    d.reduced.coefficient < 10 ^ count := by
  unfold reduced
  split
  · exact Nat.pow_pos (by decide)
  case isFalse nonzero =>
    have fits := lt_pow_digitCount d.coefficient
    obtain ⟨same, trimmed⟩ :=
      trimZeros_spec (digitCount d.coefficient) d.coefficient
    have noZero := trimmed (Nat.pos_of_ne_zero nonzero) fits
    generalize trimZeros (digitCount d.coefficient) d.coefficient = result
      at same noZero
    have atMost : result.1 ≤ d.coefficient := by
      rw [same]
      exact Nat.le_mul_of_pos_right _ (Nat.pow_pos (by decide))
    have differs : result.1 ≠ 10 ^ count := by
      intro equal
      rw [equal, ← Nat.succ_pred_eq_of_pos positive, pow_succ] at noZero
      omega
    dsimp only
    omega

/-- The number is one of at most `count` digits times a power of ten. -/
def IsShort (count : Nat) (q : ℚ) : Prop :=
  ∃ (coefficient : Nat) (exponent : ℤ),
    coefficient < 10 ^ count ∧ q = coefficient * (10 : ℚ) ^ exponent

theorem isShort_size {d : Decimal} {count : Nat}
    (small : d.coefficient < 10 ^ count) : IsShort count d.size :=
  ⟨d.coefficient, d.exponent, small, rfl⟩

theorem IsShort.mul_ten_pow {count : Nat} {q : ℚ} (short : IsShort count q)
    (shift : Nat) : IsShort count (q * 10 ^ shift) := by
  obtain ⟨coefficient, exponent, small, rfl⟩ := short
  refine ⟨coefficient, exponent + shift, small, ?_⟩
  rw [zpow_add₀ ten_ne_zero, zpow_natCast]
  ring

theorem IsShort.mono {count more : Nat} {q : ℚ} (short : IsShort count q)
    (le : count ≤ more) : IsShort more q := by
  obtain ⟨coefficient, exponent, small, same⟩ := short
  exact ⟨coefficient, exponent,
    lt_of_lt_of_le small (Nat.pow_le_pow_right (by decide) le), same⟩

/-- Digits of a coefficient beyond those that its number needs are zeros. -/
private theorem pow_dvd_coefficient {d : Decimal} {count excess : Nat}
    (short : IsShort count d.size)
    (long : 10 ^ (count + excess - 1) ≤ d.coefficient) (cut : 0 < excess) :
    10 ^ excess ∣ d.coefficient := by
  obtain ⟨coefficient, exponent, small, same⟩ := short
  have cancelled : (d.coefficient : ℚ) =
      coefficient * (10 : ℚ) ^ (exponent - d.exponent) := by
    have positive := ten_zpow_pos d.exponent
    have divided : (d.coefficient : ℚ) = d.size / (10 : ℚ) ^ d.exponent := by
      unfold size
      rw [mul_div_cancel_right₀ _ positive.ne']
    rw [divided, same, zpow_sub₀ ten_ne_zero]
    ring
  by_cases below : exponent - d.exponent < 0
  · have atMost : (d.coefficient : ℚ) ≤ coefficient := by
      rw [cancelled]
      exact mul_le_of_le_one_right (Nat.cast_nonneg _)
        (zpow_le_one_of_nonpos₀ (by norm_num) below.le)
    have bound : d.coefficient ≤ coefficient := by exact_mod_cast atMost
    have grown : 10 ^ count ≤ 10 ^ (count + excess - 1) :=
      Nat.pow_le_pow_right (by decide) (by omega)
    omega
  · rw [ten_zpow_of_nonneg (by omega)] at cancelled
    have whole : d.coefficient =
        coefficient * 10 ^ (exponent - d.exponent).toNat := by
      exact_mod_cast cancelled
    by_cases enough : excess ≤ (exponent - d.exponent).toNat
    · rw [whole]
      exact Dvd.dvd.mul_left (Nat.pow_dvd_pow 10 enough) coefficient
    · have grown : coefficient * 10 ^ (exponent - d.exponent).toNat <
          10 ^ count * 10 ^ (exponent - d.exponent).toNat :=
        Nat.mul_lt_mul_of_pos_right small (Nat.pow_pos (by decide))
      have bound : 10 ^ count * 10 ^ (exponent - d.exponent).toNat ≤
          10 ^ (count + excess - 1) := by
        rw [← pow_add]
        exact Nat.pow_le_pow_right (by decide) (by omega)
      omega

private theorem divideHalfEven_mul_right (n : Nat) {d : Nat} (positive : 0 < d) :
    divideHalfEven (n * d) d = n := by
  unfold divideHalfEven
  rw [Nat.mul_mod_left, Nat.mul_div_cancel n positive, Nat.mul_zero,
    if_pos positive]

/-- A number with few significant digits loses none of them. -/
theorem size_toSignificant {d : Decimal} {count : Nat} (positive : 0 < count)
    (short : IsShort count d.size) :
    (d.toSignificant count).size = d.size := by
  unfold toSignificant
  dsimp only
  split
  · rfl
  case isFalse cut =>
    have long : 10 ^ (count + (digitCount d.coefficient - count) - 1) ≤
        d.coefficient := by
      have sameCount : count + (digitCount d.coefficient - count) =
          digitCount d.coefficient := by
        omega
      rw [sameCount]
      refine pow_digitCount_le (Nat.pos_of_ne_zero fun zero => cut ?_)
      rw [zero]
      exact Nat.sub_eq_zero_of_le positive
    obtain ⟨kept, whole⟩ :=
      pow_dvd_coefficient short long (Nat.pos_of_ne_zero cut)
    generalize excessEq : digitCount d.coefficient - count = excess
      at cut long whole
    have result : divideHalfEven d.coefficient (Nat.pow 10 excess) = kept := by
      rw [whole, Nat.pow_eq, Nat.mul_comm]
      exact divideHalfEven_mul_right kept (Nat.pow_pos (by decide))
    have fits : digitCount kept ≤ count := by
      refine (digitCount_le_iff positive).mpr ?_
      have most : d.coefficient < 10 ^ (excess + count) :=
        (digitCount_le_iff (by omega)).mp (by omega)
      rw [whole, pow_add] at most
      exact Nat.lt_of_mul_lt_mul_left most
    rw [result, if_pos fits]
    unfold size
    dsimp only
    rw [whole, zpow_add₀ ten_ne_zero, zpow_natCast]
    push_cast
    ring

@[simp]
theorem negative_toSignificant (d : Decimal) (count : Nat) :
    (d.toSignificant count).negative = d.negative := by
  unfold toSignificant
  dsimp only
  split
  · rfl
  · split <;> rfl

theorem size_toPlaces_of_nonneg {d : Decimal} {places : ℤ}
    (enough : 0 ≤ d.exponent + places) :
    (d.toPlaces places).size = d.size := by
  have zeros : d.toPlaces places =
      d.withZeros (d.exponent + places).toNat := by
    unfold toPlaces withZeros
    rw [if_pos enough]
    congr
    omega
  rw [zeros, size_withZeros]

@[simp]
theorem exponent_toPlaces (d : Decimal) (places : ℤ) :
    (d.toPlaces places).exponent = -places := by
  unfold toPlaces
  dsimp only
  split <;> rfl

@[simp]
theorem negative_toPlaces (d : Decimal) (places : ℤ) :
    (d.toPlaces places).negative = d.negative := by
  unfold toPlaces
  dsimp only
  split <;> rfl

/-- A coefficient that loses digits does not grow. -/
theorem coefficient_toPlaces_le {d : Decimal} {places : ℤ}
    (cut : d.exponent + places < 0) :
    (d.toPlaces places).coefficient ≤ d.coefficient := by
  unfold toPlaces
  dsimp only
  rw [if_neg (Int.not_le.mpr cut), Nat.pow_eq]
  dsimp only
  have ten : 10 ≤ 10 ^ (-(d.exponent + places)).toNat :=
    Nat.le_self_pow (by omega) 10
  generalize 10 ^ (-(d.exponent + places)).toNat = unit at ten
  unfold divideHalfUp
  refine Nat.le_of_lt_succ ((Nat.div_lt_iff_lt_mul (by omega)).mpr ?_)
  nlinarith

theorem size_rounded (d : Decimal) (places : ℤ) :
    (d.rounded places).size = (d.toPlaces places).size := by
  unfold rounded
  dsimp only
  split
  case isTrue zero =>
    rw [(isZero_iff _).mp zero]
    simp [size, Decimal.zero]
  · rfl

/-- Rounding to places leaves a number with few significant digits as one. -/
theorem isShort_rounded {d : Decimal} {count : Nat}
    (small : d.coefficient < 10 ^ count) (places : ℤ) :
    IsShort count (d.rounded places).size := by
  rw [size_rounded]
  by_cases enough : 0 ≤ d.exponent + places
  · rw [size_toPlaces_of_nonneg enough]
    exact isShort_size small
  · exact isShort_size
      (lt_of_le_of_lt (coefficient_toPlaces_le (by omega)) small)

theorem negative_rounded_of_size_ne_zero {d : Decimal} {places : ℤ}
    (nonzero : (d.rounded places).size ≠ 0) :
    (d.rounded places).negative = d.negative := by
  unfold rounded at nonzero ⊢
  dsimp only at nonzero ⊢
  split
  case isTrue zero =>
    rw [if_pos zero] at nonzero
    exact absurd (by simp [size, Decimal.zero]) nonzero
  case isFalse =>
    exact negative_toPlaces d places

/-- A decimal is not rounded beyond the power of ten of its first digit. -/
theorem size_rounded_le {d : Decimal} {count places : Nat}
    (small : d.coefficient < 10 ^ count)
    (cut : d.exponent + places < 0) :
    (d.rounded places).size ≤ 10 ^ count := by
  have fewer := coefficient_toPlaces_le cut
  have coefficient : ((d.toPlaces places).coefficient : ℚ) ≤ 10 ^ count := by
    exact_mod_cast fewer.trans small.le
  have fraction : (10 : ℚ) ^ (-(places : ℤ)) ≤ 1 :=
    zpow_le_one_of_nonpos₀ (by norm_num) (by omega)
  rw [size_rounded, size, exponent_toPlaces]
  calc
    ((d.toPlaces places).coefficient : ℚ) * 10 ^ (-(places : ℤ)) ≤
        (d.toPlaces places).coefficient :=
      mul_le_of_le_one_right (Nat.cast_nonneg _) fraction
    _ ≤ 10 ^ count := coefficient

/-- What is rounded to zero is the plain zero. -/
theorem rounded_of_size_eq_zero {d : Decimal} {places : ℤ}
    (zero : (d.rounded places).size = 0) : d.rounded places = .zero := by
  rw [size_rounded] at zero
  exact if_pos ((isZero_iff _).mpr zero)

theorem negative_rounded_of_size_eq_zero {d : Decimal} {places : ℤ}
    (zero : (d.rounded places).size = 0) :
    (d.rounded places).negative = false := by
  rw [rounded_of_size_eq_zero zero]
  rfl

end CurrencyPad.Decimal
