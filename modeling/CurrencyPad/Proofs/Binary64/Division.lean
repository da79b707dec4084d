import CurrencyPad.Proofs.Binary64.Finite

/-!
# Quotients of doubles

A finite double that is divided by a double of at least two is finite: neither
the quotient nor what rounding adds to it reaches the exponent of infinity.
-/

namespace CurrencyPad.Binary64

open Float.Model Float.Model.UnpackedFloat

theorem mantissa_shiftRight (mantissa : ExtendedMantissa) (count : Nat) :
    (mantissa >>> count).mantissa = mantissa.mantissa / 2 ^ count := by
  show (Nat.repeat ExtendedMantissa.shiftRightOne count mantissa).mantissa = _
  induction count with
  | zero =>
      exact (Nat.div_one _).symm
  | succ count inductionHypothesis =>
      rw [Nat.repeat, pow_succ, ← Nat.div_div_eq_div_mul,
        ← inductionHypothesis]
      rfl

theorem mantissa_ofMantissaAndAccuracy (count : Nat) (accuracy : Accuracy) :
    (ExtendedMantissa.ofMantissaAndAccuracy count accuracy).mantissa =
      count := by
  unfold ExtendedMantissa.ofMantissaAndAccuracy
  split <;> rfl

theorem roundedMantissa_le (mantissa : ExtendedMantissa) :
    mantissa.roundedMantissa ≤ mantissa.mantissa + 1 := by
  unfold ExtendedMantissa.roundedMantissa Accuracy.roundToNearestEven
  split <;> omega

/-- The exponent to which a number is shifted, and how many bits are left. -/
theorem shiftToTargetExponent_spec (count : Nat) (exponent : ℤ)
    (accuracy : Accuracy) :
    let shifted :=
      shiftToTargetExponent .binary64 count exponent accuracy
    shifted.2 =
        max exponent (max (count.log2 + 1 + exponent - 53) (-1074)) ∧
      shifted.1.mantissa < 2 ^ 53 := by
  have target : Format.targetExponent .binary64 (totalExponent count exponent) =
      max (count.log2 + 1 + exponent - 53) (-1074) := rfl
  unfold shiftToTargetExponent shiftToExponent
  dsimp only
  rw [target, mantissa_shiftRight, mantissa_ofMantissaAndAccuracy]
  refine ⟨by omega, ?_⟩
  rw [Nat.div_lt_iff_lt_mul (Nat.two_pow_pos _), ← pow_add]
  refine lt_of_lt_of_le Nat.lt_log2_self ?_
  exact Nat.pow_le_pow_right (by decide) (by omega)

/-- Rounding adds at most one to the exponent to which a number is shifted. -/
theorem roundWithAccuracy_spec (sign : Sign) (count : Nat) (exponent : ℤ)
    (accuracy : Accuracy) :
    roundWithAccuracy .binary64 sign count exponent accuracy = .zero sign ∨
      ∃ rounded roundedExponent positive,
        roundWithAccuracy .binary64 sign count exponent accuracy =
            .finite sign rounded roundedExponent positive ∧
          roundedExponent ≤
            max exponent (max (count.log2 + 1 + exponent - 53) (-1074)) + 1 := by
  obtain ⟨firstExponent, firstFew⟩ :=
    shiftToTargetExponent_spec count exponent accuracy
  unfold roundWithAccuracy
  generalize shiftToTargetExponent .binary64 count exponent accuracy = first
    at firstExponent firstFew
  obtain ⟨mantissa, middle⟩ := first
  dsimp only at firstExponent firstFew ⊢
  have few := roundedMantissa_le mantissa
  obtain ⟨lastExponent, _⟩ :=
    shiftToTargetExponent_spec mantissa.roundedMantissa middle .exact
  have log : mantissa.roundedMantissa.log2 ≤ 53 := by
    by_cases zero : mantissa.roundedMantissa = 0
    · rw [zero]
      decide
    · exact Nat.le_of_lt_succ ((Nat.log2_lt zero).mpr (by omega))
  generalize shiftToTargetExponent .binary64 mantissa.roundedMantissa middle
    .exact = last at lastExponent
  obtain ⟨lastMantissa, final⟩ := last
  dsimp only at lastExponent ⊢
  split
  · exact .inl rfl
  case isFalse some =>
    exact .inr ⟨lastMantissa.mantissa, final, Nat.pos_of_ne_zero some, rfl,
      by omega⟩

theorem isFinite_unpack_of_exponent {word : BitVec 64}
    (ordinary : @unpackExponent .binary64 word ≠ -1#11) :
    (UnpackedFloat.unpack .binary64 word).isFinite = true := by
  unfold UnpackedFloat.unpack
  dsimp only
  rw [if_neg ordinary]
  split
  · split <;> rfl
  · rfl

/-- A packed number has the exponent field of its exponent, or none. -/
theorem toNat_unpackExponent_pack_le {sign : Sign} {count : Nat}
    {exponent : ℤ} {positive : 0 < count} (small : exponent ≤ 971) :
    (@unpackExponent .binary64 (UnpackedFloat.pack .binary64
      (.finite sign count exponent positive))).toNat ≤
        (exponent + 1075).toNat := by
  have notInfinite : ¬ 2 ^ Format.binary64.exponentBits ≤
      (exponent + Format.binary64.exponentBias +
        Format.binary64.mantissaBitsWithoutImplicit).toNat + 1 := by
    show ¬ 2 ^ 11 ≤ (exponent + 1023 + 52).toNat + 1
    omega
  unfold UnpackedFloat.pack
  dsimp only
  rw [if_neg notInfinite]
  split
  · rw [unpackExponent_packComponents, BitVec.toNat_ofNat]
    show (exponent + 1023 + 52).toNat % 2 ^ 11 ≤ (exponent + 1075).toNat
    omega
  · rw [unpackExponent_packComponents]
    exact Nat.zero_le _

theorem isFinite_pack {sign : Sign} {count : Nat} {exponent : ℤ}
    {positive : 0 < count} (small : exponent ≤ 971) :
    (Float.ofModel (Float.Model.pack
      (.finite sign count exponent positive))).isFinite = true := by
  refine isFinite_unpack_of_exponent fun special => ?_
  have field := @toNat_unpackExponent_pack_le sign count exponent positive
    small
  have packed : @unpackExponent .binary64 (UnpackedFloat.pack .binary64
      (.finite sign count exponent positive)) = -1#11 := special
  have all : (-1#11).toNat = 2047 := rfl
  rw [packed] at field
  omega

theorem isFinite_pack_zero (sign : Sign) :
    (Float.ofModel (Float.Model.pack (.zero sign))).isFinite = true := by
  cases sign <;> decide

/-- The pattern of a packed number is below the first one of the next exponent. -/
theorem lt_of_eq_pack {negative : Bool} {bits : Nat} (few : bits < infinityBits)
    {sign : Sign} {count : Nat} {exponent : ℤ} {positive : 0 < count}
    (small : exponent ≤ 971)
    (same : ofMagnitudeBits negative bits =
      Float.ofModel (Float.Model.pack
        (.finite sign count exponent positive))) :
    bits < ((exponent + 1075).toNat + 1) * 2 ^ 52 := by
  have words : BitVec.ofNat 64 (word negative bits) =
      UnpackedFloat.pack .binary64 (.finite sign count exponent positive) := by
    have packed := congrArg (fun x : Float => x.toBits.toBitVec) same
    rw [toBits_ofMagnitudeBits few.le] at packed
    exact packed
  have field := @toNat_unpackExponent_pack_le sign count exponent positive
    small
  rw [← words, toNat_unpackExponent_word negative few.le] at field
  omega

/-- The last bit of a quotient that is not zero. -/
theorem log2_shiftLeft_div_le {dividend divisor shift : Nat}
    (divisorPos : 0 < divisor) (some : dividend <<< shift / divisor ≠ 0) :
    (dividend <<< shift / divisor).log2 + divisor.log2 ≤
      dividend.log2 + shift := by
  have product : (dividend <<< shift / divisor) * divisor ≤
      dividend * 2 ^ shift := by
    rw [Nat.shiftLeft_eq]
    exact Nat.div_mul_le_self _ _
  have least : 2 ^ ((dividend <<< shift / divisor).log2 + divisor.log2) ≤
      (dividend <<< shift / divisor) * divisor := by
    rw [pow_add]
    exact Nat.mul_le_mul (Nat.log2_self_le some)
      (Nat.log2_self_le divisorPos.ne')
  have most : dividend * 2 ^ shift < 2 ^ (dividend.log2 + 1 + shift) := by
    rw [pow_add]
    exact Nat.mul_lt_mul_of_pos_right Nat.lt_log2_self (Nat.two_pow_pos shift)
  have exponents := (Nat.pow_lt_pow_iff_right (by decide)).mp
    (lt_of_le_of_lt (least.trans product) most)
  omega

/-- The exponent of a rounded quotient exceeds by at most one what the first
bits of dividend and divisor tell. -/
theorem div_spec (negative : Bool) {bits : Nat} (few : bits < infinityBits)
    {y : Float} {sign : Sign} {count : Nat} {exponent : ℤ} {positive : 0 < count}
    (divisor : y.toModel.unpack = .finite sign count exponent positive) :
    (∃ sign, ofMagnitudeBits negative bits / y =
      Float.ofModel (Float.Model.pack (.zero sign))) ∨
    ∃ sign rounded roundedExponent positive,
      ofMagnitudeBits negative bits / y =
        Float.ofModel (Float.Model.pack
          (.finite sign rounded roundedExponent positive)) ∧
      roundedExponent ≤
        max ((unitCount bits).log2 + (unitIndex bits + leastExponent) -
          (count.log2 + exponent) - 51) (-1073) := by
  have quotientEq : ofMagnitudeBits negative bits / y =
      Float.ofModel (Float.Model.pack (UnpackedFloat.div .binary64
        (ofMagnitudeBits negative bits).toModel.unpack
          y.toModel.unpack)) := rfl
  rw [quotientEq, unpack_ofMagnitudeBits _ few, divisor]
  unfold unpacked
  split
  · exact .inl ⟨_, rfl⟩
  · unfold UnpackedFloat.div
    dsimp only
    generalize resultEq : divCore .binary64 (unitCount bits)
      (unitIndex bits + leastExponent) count exponent = result
    have target : result.2.1 =
        min (unitIndex bits + leastExponent - exponent)
          (max (((unitCount bits).log2 + 1 +
            (unitIndex bits + leastExponent)) -
              (count.log2 + 1 + exponent) - 53) (-1074)) := by
      rw [← resultEq]
      rfl
    have quotient : result.1 =
        unitCount bits <<<
            (unitIndex bits + leastExponent - exponent - result.2.1).toNat /
          count := by
      rw [← resultEq]
      rfl
    have bound : result.1.log2 + 1 + result.2.1 - 53 ≤
        max ((unitCount bits).log2 + (unitIndex bits + leastExponent) -
          (count.log2 + exponent) - 52) (-1074) := by
      by_cases none : result.1 = 0
      · rw [none]
        have zero : Nat.log2 0 = 0 := rfl
        omega
      · rw [quotient] at none
        have logs := log2_shiftLeft_div_le positive none
        rw [← quotient] at logs
        omega
    rcases roundWithAccuracy_spec (signOf negative / sign) result.1 result.2.1
      result.2.2 with zero | ⟨_, _, nonzero, isFinite, small⟩
    · rw [zero]
      exact .inl ⟨_, rfl⟩
    · rw [isFinite]
      exact .inr ⟨_, _, _, nonzero, rfl, by omega⟩

/-- A quotient by a number of at least two is finite. -/
theorem isFinite_div {x y : Float} (finite : x.isFinite = true) {sign : Sign}
    {count : Nat} {exponent : ℤ} {positive : 0 < count}
    (divisor : y.toModel.unpack = .finite sign count exponent positive)
    (least : 1 ≤ count.log2 + exponent) : (x / y).isFinite = true := by
  obtain ⟨negative, bits, few, rfl⟩ := exists_eq_ofMagnitudeBits finite
  rcases div_spec negative few divisor with
    ⟨_, zero⟩ | ⟨_, _, _, _, isFinite, small⟩
  · rw [zero]
    exact isFinite_pack_zero _
  · obtain ⟨_, fewUnits, _⟩ := bits_eq_index_add_count bits
    have index : unitIndex bits ≤ 2045 := by
      unfold unitIndex
      unfold infinityBits at few
      omega
    have log : (unitCount bits).log2 ≤ 52 := by
      by_cases none : unitCount bits = 0
      · rw [none]
        decide
      · exact Nat.le_of_lt_succ ((Nat.log2_lt none).mpr fewUnits)
    have leastEq : leastExponent = -1074 := rfl
    rw [isFinite]
    apply isFinite_pack
    omega

end CurrencyPad.Binary64
