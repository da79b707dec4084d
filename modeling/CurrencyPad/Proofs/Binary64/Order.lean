import CurrencyPad.Proofs.Binary64.Division
import CurrencyPad.Proofs.Binary64.Shortest

/-!
# The order of absolute values

The absolute values of finite doubles are ordered as their bit patterns, and the
shortest decimal of a double stays below a double that is greater.
-/

namespace CurrencyPad.Binary64

open Float.Model Float.Model.UnpackedFloat

variable {negative : Bool} {bits other : Nat}

theorem abs_ofMagnitudeBits (few : bits < infinityBits) :
    (ofMagnitudeBits negative bits).abs = ofMagnitudeBits false bits := by
  have plain : (unpacked negative bits).abs = unpacked false bits := by
    unfold unpacked
    split <;> rfl
  rw [ofMagnitudeBits_eq false few.le]
  show Float.ofModel (Float.Model.pack
    (ofMagnitudeBits negative bits).toModel.unpack.abs) = _
  rw [unpack_ofMagnitudeBits _ few, plain, ← unpack_word few]
  rfl

/-- The greater pattern has the greater unit, or as great a unit and the greater
count of it. -/
theorem units_of_le (le : bits ≤ other) :
    unitIndex bits < unitIndex other ∨
      unitIndex bits = unitIndex other ∧ unitCount bits ≤ unitCount other := by
  unfold unitCount unitIndex
  omega

private theorem finite_le {count otherCount : Nat} {exponent otherExponent : ℤ}
    {positive : 0 < count} {otherPositive : 0 < otherCount}
    (le : exponent < otherExponent ∨
      exponent = otherExponent ∧ count ≤ otherCount) :
    (UnpackedFloat.finite .positive count exponent positive).le
      (.finite .positive otherCount otherExponent otherPositive) = true := by
  show ((compare exponent otherExponent).then
    (compare count otherCount)).isLE = true
  rcases le with less | ⟨same, fewer⟩
  · rw [compare_lt_iff_lt.mpr less]
    rfl
  · rw [compare_eq_iff_eq.mpr same]
    exact Nat.isLE_compare.mpr fewer

theorem unpacked_le (le : bits ≤ other) :
    (unpacked false bits).le (unpacked false other) = true := by
  have units := units_of_le le
  have counts : unitCount bits ≠ 0 → unitCount other ≠ 0 := by
    unfold unitCount unitIndex
    omega
  unfold unpacked
  by_cases zero : unitCount bits = 0
  · rw [dif_pos zero]
    split <;> rfl
  · rw [dif_neg zero, dif_neg (counts zero)]
    apply finite_le
    omega

theorem ofMagnitudeBits_le (le : bits ≤ other) (few : other < infinityBits) :
    ofMagnitudeBits false bits ≤ ofMagnitudeBits false other := by
  have unpackedLe := unpacked_le le
  rw [← unpack_ofMagnitudeBits false few,
    ← unpack_ofMagnitudeBits false (le.trans_lt few)] at unpackedLe
  exact decide_eq_true (p := (ofMagnitudeBits false bits).toModel ≤
    (ofMagnitudeBits false other).toModel) unpackedLe

/-- A positive finite double is that of its own bits. -/
theorem ofMagnitudeBits_toBits {x : Float}
    (few : x.toBits.toNat < infinityBits) :
    ofMagnitudeBits false x.toBits.toNat = x := by
  have same : word false x.toBits.toNat = x.toBits.toNat := by
    simp [word]
  rw [ofMagnitudeBits_eq false few.le, same, UInt64.ofNat_toNat,
    Float.ofBits_toBits]

/-- What does not reach a positive double has a lower pattern. -/
theorem exists_lt_of_not_le {x limit : Float} (finite : x.isFinite = true)
    (few : limit.toBits.toNat < infinityBits) (short : ¬ limit ≤ x.abs) :
    ∃ negative bits, x = ofMagnitudeBits negative bits ∧
      bits < limit.toBits.toNat := by
  obtain ⟨negative, bits, bitsFew, rfl⟩ := exists_eq_ofMagnitudeBits finite
  refine ⟨negative, bits, rfl, ?_⟩
  by_contra reaches
  apply short
  rw [abs_ofMagnitudeBits bitsFew, ← ofMagnitudeBits_toBits few]
  exact ofMagnitudeBits_le (not_lt.mp reaches) bitsFew

theorem bits_eq_of_ofMagnitudeBits_eq {otherNegative : Bool}
    (few : bits < infinityBits) (otherFew : other < infinityBits)
    (same : ofMagnitudeBits negative bits =
      ofMagnitudeBits otherNegative other) : bits = other := by
  have words := congrArg (fun x : Float => x.toBits.toNat) same
  rw [toNat_toBits_ofMagnitudeBits few.le,
    toNat_toBits_ofMagnitudeBits otherFew.le] at words
  unfold word signBit at words
  unfold infinityBits at few otherFew
  split at words <;> split at words <;> omega

/-- The shortest decimal of a double is less than a greater double. -/
theorem size_lt_grid {d : Decimal} (few : bits < infinityBits)
    (isDecimal : toDecimal (ofMagnitudeBits negative bits) = .finite d)
    (less : bits < other) : d.size < grid other := by
  have finite : (ofMagnitudeBits negative bits).isFinite = true :=
    isFinite_ofMagnitudeBits few
  obtain ⟨shortest, same, _, readsBack⟩ := toDecimal_spec finite
  rw [isDecimal] at same
  cases same
  obtain ⟨nearest, rounded⟩ := exists_isRounded d.size_nonneg
  rw [ofDecimal_eq rounded] at readsBack
  have nearestFew : nearest < infinityBits := by
    rw [← readsBack] at finite
    exact lt_infinityBits_of_isFinite finite
  have sameBits := bits_eq_of_ofMagnitudeBits_eq nearestFew few readsBack
  by_contra reaches
  have greater := (IsRounded.grid_self other).le_of_le rounded
    (not_lt.mp reaches)
  omega

/-- A greater pattern does not have a lower first bit. -/
theorem firstBit_le (le : bits ≤ other) :
    (unitCount bits).log2 + unitIndex bits ≤
      (unitCount other).log2 + unitIndex other := by
  by_cases zero : unitCount bits = 0
  · have none : bits = 0 := by
      unfold unitCount unitIndex at zero
      omega
    subst none
    exact Nat.zero_le _
  · rcases units_of_le le with less | ⟨same, fewer⟩
    · obtain ⟨_, few, _⟩ := bits_eq_index_add_count bits
      obtain ⟨_, _, many⟩ := bits_eq_index_add_count other
      have first : (unitCount bits).log2 < 53 :=
        (Nat.log2_lt zero).mpr few
      have otherFirst : 52 ≤ (unitCount other).log2 := by
        apply (Nat.le_log2 _).mpr <;> omega
      omega
    · have first : (unitCount bits).log2 ≤ (unitCount other).log2 := by
        apply (Nat.le_log2 _).mpr
        · exact (Nat.log2_self_le zero).trans fewer
        · omega
      omega

theorem grid_four : grid (1025 * 2 ^ 52) = 4 := by
  have parts : 1025 * 2 ^ 52 = 1024 * 2 ^ 52 + 2 ^ 52 := rfl
  rw [parts, grid_eq (by decide) (by decide), unit, leastExponent]
  norm_num

/-- The quotient of a double and a greater one is far less than four. -/
theorem size_div_lt {d : Decimal} (less : bits < other)
    (few : other < infinityBits)
    (isDecimal : toDecimal (ofMagnitudeBits negative bits /
      ofMagnitudeBits false other) = .finite d) : d.size < 4 := by
  have nonzero : unitCount other ≠ 0 := by
    unfold unitCount unitIndex
    omega
  have divisor : (ofMagnitudeBits false other).toModel.unpack =
      .finite .positive (unitCount other) (unitIndex other + leastExponent)
        (Nat.pos_of_ne_zero nonzero) := by
    rw [unpack_ofMagnitudeBits _ few, unpacked, dif_neg nonzero]
    rfl
  obtain ⟨quotientNegative, quotient, small, same⟩ :
      ∃ sign quotient, quotient < 1025 * 2 ^ 52 ∧
        ofMagnitudeBits negative bits / ofMagnitudeBits false other =
          ofMagnitudeBits sign quotient := by
    rcases div_spec negative (less.trans few) divisor with
      ⟨sign, zero⟩ | ⟨sign, rounded, exponent, positive, isFinite, atMost⟩
    · rw [zero]
      cases sign with
      | positive =>
          exact ⟨false, 0, by norm_num, rfl⟩
      | negative =>
          exact ⟨true, 0, by norm_num, rfl⟩
    · have firstBit := firstBit_le less.le
      have low : exponent ≤ -51 := by omega
      obtain ⟨quotientNegative, quotient, quotientFew, same⟩ :=
        exists_eq_ofMagnitudeBits
          (@isFinite_pack sign rounded exponent positive (by omega))
      have bound := lt_of_eq_pack quotientFew (by omega) same.symm
      have field : (exponent + 1075).toNat + 1 ≤ 1025 := by omega
      exact ⟨quotientNegative, quotient,
        bound.trans_le (Nat.mul_le_mul_right _ field), isFinite.trans same⟩
  rw [same] at isDecimal
  rw [← grid_four]
  exact size_lt_grid (small.trans (by norm_num [infinityBits])) isDecimal small

end CurrencyPad.Binary64
