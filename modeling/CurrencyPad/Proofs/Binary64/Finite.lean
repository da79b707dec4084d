import Mathlib
import CurrencyPad.Binary64.Finite
import CurrencyPad.Binary64.Shortest
import CurrencyPad.Proofs.Binary64.Grid

/-!
# Finite doubles and their bit patterns

A finite double is given by its sign and by the bit pattern of its absolute
value, which is less than that of infinity.  Negation changes the sign alone.
-/

namespace CurrencyPad.Binary64

open Float.Model Float.Model.UnpackedFloat

/-- The word of a sign and the bit pattern of an absolute value. -/
def word (negative : Bool) (bits : Nat) : Nat :=
  (if negative then signBit else 0) + bits

def signOf (negative : Bool) : Sign :=
  if negative then .negative else .positive

def unpacked (negative : Bool) (bits : Nat) : UnpackedFloat :=
  if none : unitCount bits = 0 then .zero (signOf negative)
  else
    .finite (signOf negative) (unitCount bits)
      (unitIndex bits + leastExponent) (Nat.pos_of_ne_zero none)

private theorem toNat_unpackExponent (w : BitVec 64) :
    (@unpackExponent .binary64 w).toNat = w.toNat / 2 ^ 52 % 2 ^ 11 := by
  simp only [unpackExponent, BitVec.toNat_cast, BitVec.extractLsb_toNat,
    Nat.shiftRight_eq_div_pow]

private theorem toNat_unpackMantissa (w : BitVec 64) :
    (@unpackMantissa .binary64 w).toNat = w.toNat % 2 ^ 52 := by
  simp only [unpackMantissa, BitVec.toNat_cast, BitVec.extractLsb_toNat,
    Nat.shiftRight_eq_div_pow]
  simp

private theorem toNat_unpackSign (w : BitVec 64) :
    (@unpackSign .binary64 w).toNat = w.toNat / 2 ^ 63 % 2 := by
  simp only [unpackSign, BitVec.toNat_cast, BitVec.extractLsb_toNat,
    Nat.shiftRight_eq_div_pow]

variable {negative : Bool} {bits : Nat}

theorem word_lt (few : bits ≤ infinityBits) : word negative bits < 2 ^ 64 := by
  unfold word signBit
  unfold infinityBits at few
  split <;> omega

private theorem toNat_word (few : bits ≤ infinityBits) :
    (BitVec.ofNat 64 (word negative bits)).toNat = word negative bits := by
  rw [BitVec.toNat_ofNat, Nat.mod_eq_of_lt (word_lt few)]

theorem toNat_unpackExponent_word (negative : Bool)
    (few : bits ≤ infinityBits) :
    (@unpackExponent .binary64 (BitVec.ofNat 64 (word negative bits))).toNat =
      bits / 2 ^ 52 := by
  rw [toNat_unpackExponent, toNat_word few]
  unfold word signBit
  unfold infinityBits at few
  split <;> omega

private theorem toNat_unpackMantissa_word (negative : Bool)
    (few : bits ≤ infinityBits) :
    (@unpackMantissa .binary64 (BitVec.ofNat 64 (word negative bits))).toNat =
      bits % 2 ^ 52 := by
  rw [toNat_unpackMantissa, toNat_word few]
  unfold word signBit
  split <;> omega

private theorem signOf_word (negative : Bool) (few : bits ≤ infinityBits) :
    Sign.ofBitVec
        (@unpackSign .binary64 (BitVec.ofNat 64 (word negative bits))) =
      signOf negative := by
  have field := toNat_unpackSign (BitVec.ofNat 64 (word negative bits))
  rw [toNat_word few] at field
  unfold Sign.ofBitVec signOf
  unfold infinityBits at few
  cases negative with
  | false =>
      have zero : word false bits / 2 ^ 63 % 2 = 0 := by
        simp only [word]
        simp
        omega
      rw [zero] at field
      rw [if_pos (BitVec.eq_of_toNat_eq field)]
      rfl
  | true =>
      have one : word true bits / 2 ^ 63 % 2 = 1 := by
        simp only [word, signBit]
        simp
        omega
      rw [one] at field
      refine (if_neg fun zero => ?_).trans rfl
      rw [zero] at field
      cases field

private theorem toNat_one_append {width : Nat} (mantissa : BitVec width) :
    (1#1 ++ mantissa).toNat = 2 ^ width + mantissa.toNat := by
  rw [BitVec.toNat_append, ← Nat.shiftLeft_add_eq_or_of_lt mantissa.isLt]
  simp [Nat.shiftLeft_eq]

private theorem finite_congr {sign : Sign} {count otherCount : Nat}
    {exponent otherExponent : ℤ} {positive : 0 < count}
    {otherPositive : 0 < otherCount} (sameCount : count = otherCount)
    (sameExponent : exponent = otherExponent) :
    UnpackedFloat.finite sign count exponent positive =
      .finite sign otherCount otherExponent otherPositive := by
  subst sameCount sameExponent
  rfl

/-- A pattern below that of infinity is unpacked to its count of units. -/
theorem unpack_word (few : bits < infinityBits) :
    UnpackedFloat.unpack .binary64 (BitVec.ofNat 64 (word negative bits)) =
      unpacked negative bits := by
  have exponent := toNat_unpackExponent_word negative few.le
  have mantissa := toNat_unpackMantissa_word negative few.le
  have sign := signOf_word negative few.le
  unfold UnpackedFloat.unpack unpacked
  dsimp only
  rw [sign]
  set exponentField :=
    @unpackExponent .binary64 (BitVec.ofNat 64 (word negative bits))
  set mantissaField :=
    @unpackMantissa .binary64 (BitVec.ofNat 64 (word negative bits))
  have leastEq : leastExponent = -1074 := rfl
  have bias : (Float.Model.Format.binary64.exponentBias : ℤ) = 1023 := rfl
  have notSpecial : ¬ exponentField = -1#11 := by
    intro special
    rw [special] at exponent
    have all : (-1#11).toNat = 2047 := rfl
    unfold infinityBits at few
    omega
  rw [if_neg notSpecial]
  by_cases subnormal : bits < 2 ^ 52
  · have noExponent : exponentField = 0#11 := by
      apply BitVec.eq_of_toNat_eq
      rw [exponent]
      exact Nat.div_eq_of_lt subnormal
    have index : unitIndex bits = 0 := by
      unfold unitIndex
      omega
    have count : unitCount bits = mantissaField.toNat := by
      unfold unitCount
      rw [index, mantissa]
      omega
    rw [if_pos noExponent]
    by_cases zero : mantissaField = 0#52
    · have none : unitCount bits = 0 := by
        rw [count, zero]
        rfl
      rw [dif_pos zero, dif_pos none]
    · have some : unitCount bits ≠ 0 := by
        intro none
        exact zero (BitVec.eq_of_toNat_eq (count.symm.trans none))
      rw [dif_neg zero, dif_neg some]
      refine finite_congr count.symm ?_
      rw [noExponent, index, bias, leastEq]
      rfl
  · have someExponent : ¬ exponentField = 0#11 := by
      intro zero
      rw [zero] at exponent
      have none : (0#11).toNat = 0 := rfl
      omega
    have index : (unitIndex bits : ℤ) = exponentField.toNat - 1 := by
      unfold unitIndex
      rw [exponent]
      omega
    have count : unitCount bits = 2 ^ 52 + mantissaField.toNat := by
      unfold unitCount unitIndex
      rw [mantissa]
      omega
    have some : unitCount bits ≠ 0 := by omega
    rw [if_neg someExponent, dif_neg some]
    refine finite_congr ?_ ?_
    · rw [count, toNat_one_append]
    · rw [index, bias, leastEq]
      ring

/-- No payload is attached to a pattern up to that of infinity. -/
theorem valid_word (few : bits ≤ infinityBits) :
    Float.Model.Format.binary64.Valid
      (BitVec.ofNat 64 (word negative bits)) := by
  refine ⟨fun special payload => absurd ?_ payload⟩
  have exponent := toNat_unpackExponent_word negative few
  rw [special] at exponent
  have all : 2047 = bits / 2 ^ 52 := exponent
  refine BitVec.eq_of_toNat_eq ((toNat_unpackMantissa_word _ few).trans ?_)
  have noPayload : bits % 2 ^ 52 = 0 := by
    unfold infinityBits at few
    omega
  exact noPayload

theorem ofMagnitudeBits_eq (negative : Bool) (few : bits ≤ infinityBits) :
    ofMagnitudeBits negative bits =
      Float.ofBits (UInt64.ofNat (word negative bits)) := by
  rw [ofMagnitudeBits, Nat.min_eq_left few]
  rfl

theorem toBits_ofMagnitudeBits (few : bits ≤ infinityBits) :
    (ofMagnitudeBits negative bits).toBits =
      UInt64.ofNat (word negative bits) := by
  rw [ofMagnitudeBits_eq _ few]
  exact UInt64.toBitVec_inj.mp (pack_unpack_of_valid (valid_word few))

theorem toNat_toBits_ofMagnitudeBits (few : bits ≤ infinityBits) :
    (ofMagnitudeBits negative bits).toBits.toNat = word negative bits := by
  rw [toBits_ofMagnitudeBits few]
  exact Nat.mod_eq_of_lt (word_lt few)

theorem unpack_ofMagnitudeBits (negative : Bool) (few : bits < infinityBits) :
    (ofMagnitudeBits negative bits).toModel.unpack =
      unpacked negative bits := by
  have same : (ofMagnitudeBits negative bits).toModel.toBits.toBitVec =
      BitVec.ofNat 64 (word negative bits) :=
    congrArg UInt64.toBitVec (toBits_ofMagnitudeBits few.le)
  rw [Float.Model.unpack, same]
  exact unpack_word few

theorem isFinite_ofMagnitudeBits (few : bits < infinityBits) :
    (ofMagnitudeBits negative bits).isFinite = true := by
  have shape := unpack_ofMagnitudeBits negative few
  unfold Float.isFinite Float.Model.isFinite
  rw [shape]
  unfold unpacked
  split <;> rfl

theorem neg_ofMagnitudeBits (few : bits < infinityBits) :
    -ofMagnitudeBits negative bits = ofMagnitudeBits (!negative) bits := by
  have flipped : (unpacked negative bits).neg = unpacked (!negative) bits := by
    have sign : -signOf negative = signOf (!negative) := by
      cases negative <;> rfl
    unfold unpacked
    split
    · rw [UnpackedFloat.neg, sign]
    · rw [UnpackedFloat.neg, sign]
  rw [ofMagnitudeBits_eq (!negative) few.le]
  show Float.ofModel (Float.Model.pack
    (ofMagnitudeBits negative bits).toModel.unpack.neg) = _
  rw [unpack_ofMagnitudeBits _ few, flipped, ← unpack_word few]
  rfl

theorem parts?_ofMagnitudeBits (few : bits < infinityBits) :
    parts? (ofMagnitudeBits negative bits) =
      some ⟨negative, unitCount bits, unitIndex bits + leastExponent⟩ := by
  unfold parts?
  dsimp only
  rw [toNat_toBits_ofMagnitudeBits few.le]
  have power : Nat.pow 2 fractionBits = 2 ^ 52 := rfl
  have biased : word negative bits / 2 ^ 52 % 0x800 = bits / 2 ^ 52 := by
    unfold word signBit
    unfold infinityBits at few
    split <;> omega
  have fraction : word negative bits % 2 ^ 52 = bits % 2 ^ 52 := by
    unfold word signBit
    split <;> omega
  have sign : decide (signBit ≤ word negative bits) = negative := by
    unfold word signBit
    unfold infinityBits at few
    cases negative with
    | false =>
        simp
        omega
    | true =>
        simp
  rw [power, biased, fraction, sign,
    if_neg (by unfold infinityBits at few; omega)]
  congr 2
  · unfold unitCount unitIndex
    split <;> omega
  · unfold unitIndex
    omega

/-- The exponent field of a double that is no number or infinite. -/
private theorem exponentField_ne {x : Float} (finite : x.isFinite = true) :
    x.toBits.toNat / 2 ^ 52 % 2 ^ 11 ≠ 0x7FF := by
  intro special
  have field : @unpackExponent .binary64 x.toModel.toBits.toBitVec = -1#11 :=
    BitVec.eq_of_toNat_eq ((toNat_unpackExponent _).trans special)
  unfold Float.isFinite Float.Model.isFinite Float.Model.unpack
    UnpackedFloat.unpack at finite
  dsimp only at finite
  rw [if_pos field] at finite
  split at finite <;> cases finite

/-- Every finite double is that of its sign and of a pattern below that of
infinity. -/
theorem exists_eq_ofMagnitudeBits {x : Float} (finite : x.isFinite = true) :
    ∃ negative bits, bits < infinityBits ∧
      x = ofMagnitudeBits negative bits := by
  have notSpecial := exponentField_ne finite
  have few : x.toBits.toNat % signBit < infinityBits := by
    unfold signBit infinityBits
    omega
  have bound : x.toBits.toNat < 2 ^ 64 := x.toBits.toNat_lt
  have same : word (signBit ≤ x.toBits.toNat) (x.toBits.toNat % signBit) =
      x.toBits.toNat := by
    unfold word signBit
    simp only [decide_eq_true_eq]
    split <;> omega
  refine ⟨signBit ≤ x.toBits.toNat, x.toBits.toNat % signBit, few, ?_⟩
  rw [ofMagnitudeBits_eq _ few.le, same, UInt64.ofNat_toNat, Float.ofBits_toBits]

end CurrencyPad.Binary64
