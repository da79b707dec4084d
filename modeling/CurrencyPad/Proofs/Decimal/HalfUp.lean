import CurrencyPad.Decimal.Rounding
import CurrencyPad.Proofs.Decimal.Value
import Mathlib.Algebra.Order.Round
import Mathlib.Data.Rat.Floor
import Mathlib.Data.Sign.Basic

/-!
# Rounding half up

Decimals are rounded to places as the numbers are that they stand for: to the
nearest multiple of the last place, and away from zero from the middle between
two of them.  Such a rounding keeps the order of numbers and their reflections.
-/

namespace CurrencyPad

/-- A number rounded to places, with the middle between two multiples of the last
place going away from zero. -/
def halfUp (places : Nat) (q : ℚ) : ℚ :=
  SignType.sign q * round (|q| * 10 ^ places) / 10 ^ places

theorem halfUp_of_nonneg (places : Nat) {q : ℚ} (nonneg : 0 ≤ q) :
    halfUp places q = round (q * 10 ^ places) / 10 ^ places := by
  rcases nonneg.eq_or_lt with zero | positive
  · simp [halfUp, ← zero]
  · simp [halfUp, sign_pos positive, abs_of_pos positive]

@[simp]
theorem halfUp_neg (places : Nat) (q : ℚ) :
    halfUp places (-q) = -halfUp places q := by
  simp [halfUp, Left.sign_neg, neg_div]

/-- A whole number of units of the last place that no other one is nearer to a
number, and that is farther from zero than the number if another is as near. -/
structure IsHalfUp (places : Nat) (q r : ℚ) : Prop where
  isMultiple : ∃ count : ℤ, r = count / 10 ^ places
  near : |r - q| ≤ 1 / 10 ^ places / 2
  away : |r - q| = 1 / 10 ^ places / 2 → |q| < |r|

theorem IsHalfUp.neg {places : Nat} {q r : ℚ} (rounds : IsHalfUp places q r) :
    IsHalfUp places (-q) (-r) := by
  have distance : |(-r) - (-q)| = |r - q| := by
    rw [neg_sub_neg, abs_sub_comm]
  obtain ⟨⟨count, same⟩, near, away⟩ := rounds
  refine ⟨⟨-count, ?_⟩, ?_, ?_⟩
  · rw [same]
    push_cast
    ring
  · rwa [distance]
  · rwa [distance, abs_neg, abs_neg]

private theorem isHalfUp_of_nonneg (places : Nat) {q : ℚ} (nonneg : 0 ≤ q) :
    IsHalfUp places q (round (q * 10 ^ places) / 10 ^ places) := by
  have unit : (0 : ℚ) < 10 ^ places := by
    positivity
  have difference : (round (q * 10 ^ places) : ℚ) / 10 ^ places - q =
      (round (q * 10 ^ places) - q * 10 ^ places) / 10 ^ places := by
    field_simp
  have half : (1 : ℚ) / 10 ^ places / 2 = 1 / 2 / 10 ^ places := by
    ring
  refine ⟨⟨_, rfl⟩, ?_, ?_⟩
  · rw [difference, abs_div, abs_of_pos unit, half,
      div_le_div_iff_of_pos_right unit, abs_sub_comm]
    exact abs_sub_round (q * 10 ^ places)
  · rw [difference, abs_div, abs_of_pos unit, half,
      div_left_inj' unit.ne', abs_of_nonneg nonneg]
    intro tie
    -- Halves are rounded up, so the whole number is above the middle.
    have below := sub_half_lt_round (q * 10 ^ places)
    have above : q * 10 ^ places < round (q * 10 ^ places) := by
      rcases eq_or_eq_neg_of_abs_eq tie with up | down <;> linarith
    rw [← lt_div_iff₀ unit] at above
    exact above.trans_le (le_abs_self _)

theorem isHalfUp_halfUp (places : Nat) (q : ℚ) :
    IsHalfUp places q (halfUp places q) := by
  by_cases nonneg : 0 ≤ q
  · rw [halfUp_of_nonneg places nonneg]
    exact isHalfUp_of_nonneg places nonneg
  · have reflected : 0 ≤ -q := by
      linarith
    have rounds := (isHalfUp_of_nonneg places reflected).neg
    rwa [← halfUp_of_nonneg places reflected, halfUp_neg, neg_neg,
      neg_neg] at rounds

theorem halfUp_nonneg (places : Nat) {q : ℚ} (nonneg : 0 ≤ q) :
    0 ≤ halfUp places q := by
  have count : (0 : ℤ) ≤ round (q * 10 ^ places) := by
    rw [round_eq]
    positivity
  rw [halfUp_of_nonneg places nonneg]
  positivity

theorem halfUp_mono (places : Nat) : Monotone (halfUp places) := by
  have upper : ∀ {q p : ℚ}, 0 ≤ q → q ≤ p →
      halfUp places q ≤ halfUp places p := by
    intro q p nonneg le
    rw [halfUp_of_nonneg places nonneg,
      halfUp_of_nonneg places (nonneg.trans le), round_eq, round_eq]
    gcongr
  intro q p le
  -- Numbers below zero are reflected, and zero stands between the others.
  rcases le_total 0 q with nonneg | nonpos
  · exact upper nonneg le
  · rcases le_total 0 p with above | below
    · have reflected := halfUp_nonneg places (neg_nonneg.mpr nonpos)
      rw [halfUp_neg] at reflected
      linarith [halfUp_nonneg places above]
    · have reflected := upper (neg_nonneg.mpr below) (neg_le_neg le)
      rw [halfUp_neg, halfUp_neg] at reflected
      linarith

/-- A number with so few places is not changed. -/
theorem halfUp_of_isMultiple {places : Nat} {q : ℚ}
    (few : ∃ count : ℤ, q = count / 10 ^ places) : halfUp places q = q := by
  have natural : ∀ count : ℕ,
      halfUp places (count / 10 ^ places) = count / 10 ^ places := by
    intro count
    rw [halfUp_of_nonneg places (by positivity),
      div_mul_cancel₀ _ (by positivity), round_natCast]
    rfl
  obtain ⟨count, rfl⟩ := few
  obtain ⟨size, rfl | rfl⟩ := count.eq_nat_or_neg
  · exact natural size
  · rw [Int.cast_neg, Int.cast_natCast, neg_div, halfUp_neg, natural]

namespace Decimal

theorem divideHalfUp_eq_round (n : Nat) {m : Nat} (positive : 0 < m) :
    (divideHalfUp n m : ℤ) = round ((n : ℚ) / m) := by
  have sum : (n : ℚ) / m + 1 / 2 = ((2 * n + m : ℕ) : ℚ) / (2 * m : ℕ) := by
    have nonzero : (m : ℚ) ≠ 0 := by
      positivity
    push_cast
    field_simp
  rw [round_eq, sum, divideHalfUp]
  exact (Rat.floor_natCast_div_natCast _ _).symm

/-- The coefficient of a rounded decimal counts units of the last place. -/
theorem coefficient_toPlaces_eq_round (d : Decimal) (places : Nat) :
    ((d.toPlaces places).coefficient : ℤ) =
      round (d.size * 10 ^ places) := by
  -- Counted in the last place, the decimal is an integer or a fraction that is
  -- divided with its half added.
  have ten : (10 : ℚ) ≠ 0 := by
    norm_num
  have units : d.size * 10 ^ places =
      d.coefficient * (10 : ℚ) ^ (d.exponent + places) := by
    rw [size, zpow_add₀ ten, zpow_natCast, mul_assoc]
  rw [units]
  unfold toPlaces
  dsimp only
  split
  case isTrue enough =>
    rw [ten_zpow_of_nonneg enough, ← Nat.cast_mul, round_natCast]
    rfl
  case isFalse cut =>
    have power : (10 : ℚ) ^ (d.exponent + places) =
        ((10 ^ (-(d.exponent + places)).toNat : ℕ) : ℚ)⁻¹ := by
      rw [← ten_zpow_of_nonneg (by omega), zpow_neg, inv_inv]
    rw [power, ← div_eq_mul_inv]
    exact divideHalfUp_eq_round _ (Nat.pow_pos (by decide))

/-- A rounded decimal has the sign of the decimal unless it is zero. -/
theorem toRat_rounded_eq (d : Decimal) (places : ℤ) :
    (d.rounded places).toRat =
      if d.negative then -(d.rounded places).size
      else (d.rounded places).size := by
  by_cases zero : (d.rounded places).size = 0
  · simp [toRat, zero]
  · rw [toRat, negative_rounded_of_size_ne_zero zero]

theorem size_rounded_eq (d : Decimal) (places : Nat) :
    (d.rounded places).size = halfUp places d.size := by
  have coefficient : ((d.toPlaces places).coefficient : ℚ) =
      round (d.size * 10 ^ places) := by
    exact_mod_cast d.coefficient_toPlaces_eq_round places
  rw [size_rounded, size, coefficient, exponent_toPlaces, zpow_neg,
    zpow_natCast, ← div_eq_mul_inv, halfUp_of_nonneg places d.size_nonneg]

/-- What a decimal is rounded to is the number that it stands for, rounded half
up. -/
theorem toRat_rounded (d : Decimal) (places : Nat) :
    (d.rounded places).toRat = halfUp places d.toRat := by
  rw [toRat_rounded_eq, size_rounded_eq, toRat]
  cases d.negative with
  | false =>
      rfl
  | true =>
      exact (halfUp_neg places d.size).symm

end Decimal

end CurrencyPad
