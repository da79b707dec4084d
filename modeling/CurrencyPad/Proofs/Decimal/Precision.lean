import CurrencyPad.Decimal.Rounding
import CurrencyPad.Proofs.Decimal.Digits
import Mathlib.Tactic.Linarith

/-!
# Precision of rounding

Rounding to places is refused where the result would have more digits than the
precision that is set for it.  The precision is set for the digits before the
point, the places, and one digit more that a carry may add, so it is never
exceeded.
-/

namespace CurrencyPad.Decimal

/-- The multiple of `10 ^ (-places)` nearest to a decimal, unless it has more
digits than the precision. -/
def quantize? (precision : Nat) (d : Decimal) (places : ℤ) : Option Decimal :=
  if digitCount (d.toPlaces places).coefficient ≤ precision then
    some (d.toPlaces places)
  else none

/-- The precision that is set for rounding a decimal to places. -/
def roundingPrecision (d : Decimal) (places : ℤ) : Nat :=
  max productDigits (d.magnitude + places + 2).toNat

private theorem divideHalfUp_le (n : Nat) {d : Nat} (positive : 0 < d) :
    divideHalfUp n d ≤ n / d + 1 := by
  have whole : n < d * (n / d + 1) :=
    Nat.lt_mul_div_succ n positive
  unfold divideHalfUp
  refine Nat.le_of_lt_succ ((Nat.div_lt_iff_lt_mul (by omega)).mpr ?_)
  nlinarith

/-- Rounding adds at most one digit to those before the place where it rounds. -/
theorem coefficient_toPlaces_lt (d : Decimal) {places : ℤ} {count : Nat}
    (enough : digitCount d.coefficient + (d.exponent + places) ≤ count) :
    (d.toPlaces places).coefficient < 10 ^ (count + 1) := by
  have few := lt_pow_digitCount d.coefficient
  unfold toPlaces
  dsimp only
  split
  case isTrue longer =>
    rw [Nat.pow_eq]
    calc
      d.coefficient * 10 ^ (d.exponent + places).toNat
      _ < 10 ^ digitCount d.coefficient *
            10 ^ (d.exponent + places).toNat :=
          Nat.mul_lt_mul_of_pos_right few (Nat.pow_pos (by decide))
      _ = 10 ^ (digitCount d.coefficient + (d.exponent + places).toNat) :=
          (Nat.pow_add 10 _ _).symm
      _ ≤ 10 ^ (count + 1) :=
          Nat.pow_le_pow_right (by decide) (by omega)
  case isFalse shorter =>
    rw [Nat.pow_eq]
    have positive : 0 < 10 ^ (-(d.exponent + places)).toNat :=
      Nat.pow_pos (by decide)
    have quotient : d.coefficient / 10 ^ (-(d.exponent + places)).toNat <
        10 ^ count := by
      rw [Nat.div_lt_iff_lt_mul positive, ← Nat.pow_add]
      exact Nat.lt_of_lt_of_le few
        (Nat.pow_le_pow_right (by decide) (by omega))
    -- Only a quotient of nines gets a further digit from its carry.
    have rounded := divideHalfUp_le d.coefficient positive
    have room : 10 ^ count + 1 < 10 ^ (count + 1) := by
      have one : 1 ≤ 10 ^ count := Nat.one_le_pow _ _ (by decide)
      rw [Nat.pow_succ]
      omega
    dsimp only
    omega

/-- The precision that is set for rounding is enough. -/
theorem quantize?_eq_some (d : Decimal) (places : ℤ) :
    d.quantize? (d.roundingPrecision places) places =
      some (d.toPlaces places) := by
  refine if_pos ?_
  have bound := coefficient_toPlaces_lt d
    (Int.self_le_toNat (digitCount d.coefficient + (d.exponent + places)))
  rw [← digitCount_le_iff (Nat.succ_pos _)] at bound
  refine bound.trans ?_
  unfold roundingPrecision magnitude productDigits
  omega

end CurrencyPad.Decimal
